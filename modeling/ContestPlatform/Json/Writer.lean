import ContestPlatform.Instant.Text
import ContestPlatform.Json.Value
import ContestPlatform.Uuid

/-!
# JSON forms of basic values

How the values that occur in records are written as JSON.
-/

namespace ContestPlatform.Json

/-- An identifier is written as its text. -/
def uuid (u : Uuid) : Json :=
  .text u.text

/-- An instant is written as its text. -/
def instant (t : Instant) : Json :=
  .text t.text

/-- A 32-bit integer is written as a number. -/
def int32 (n : Int32) : Json :=
  int n.toInt

/-- A 64-bit integer is written as a number. -/
def int64 (n : Int64) : Json :=
  int n.toInt

/-- A list of 32-bit integers is written as a list of numbers. -/
def int32List (ns : List Int32) : Json :=
  .list (ns.map int32)

end ContestPlatform.Json
