/-!
# Content keys

A key is a relative path: segments between slashes, none of them empty, `.` or `..`, and no
backslash anywhere. So a key leads to a place below the root of a store and has one spelling only.
-/

namespace ContestPlatform.Content

/-- The segments of a key. -/
def segments (key : String) : List String :=
  (key.toList.splitOn '/').map String.ofList

/-- A segment that may not stand in a key. -/
def isForbidden (segment : String) : Bool :=
  segment == "" || segment == "." || segment == ".."

/-- The keys that stores accept. -/
def isKey (key : String) : Bool :=
  !key.toList.contains '\\' && !(segments key).any isForbidden

end ContestPlatform.Content
