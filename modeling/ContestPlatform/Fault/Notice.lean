/-!
# Notices

What a fault says, freed of what may vary from one run to the next: the parameters in a list of
complaints, the order of its lines, and what the operating system said of a failure.
-/

namespace ContestPlatform.Notice

/-- How far a line has been read. -/
inductive Mode where
  /-- In the text that stays. -/
  | text
  /-- In parameters. -/
  | parameters
  /-- In a quoted part of parameters. -/
  | quoted
  /-- After a backslash in a quoted part. -/
  | escaped

/-- A finished line whose characters stand last one first. A carriage return before the newline does
    not belong to the line. -/
def endLine : List Char → List Char
  | '\r' :: line => line.reverse
  | line => line.reverse

/-- The lines of a text after the part of a line that has been read, last character first. A newline
    ends a line; the end of the text ends one only if something stands in it. -/
def lines : List Char → List Char → List (List Char)
  | [], [] => []
  | line, [] => [line.reverse]
  | line, '\n' :: rest => endLine line :: lines [] rest
  | line, c :: rest => lines (c :: line) rest

/-- A line without its parameters. They stand between ` [{` and the next `}]` that is not quoted,
    or reach to the end of the line. -/
def dropParameters : Mode → List Char → List Char
  | _, [] => []
  | .text, ' ' :: '[' :: '{' :: rest => dropParameters .parameters rest
  | .text, c :: rest => c :: dropParameters .text rest
  | .parameters, '}' :: ']' :: rest => dropParameters .text rest
  | .parameters, '"' :: rest => dropParameters .quoted rest
  | .parameters, _ :: rest => dropParameters .parameters rest
  | .quoted, '\\' :: rest => dropParameters .escaped rest
  | .quoted, '"' :: rest => dropParameters .parameters rest
  | .quoted, _ :: rest => dropParameters .quoted rest
  | .escaped, _ :: rest => dropParameters .quoted rest

/-- Lines without parameters, in the order of their bytes. -/
def sortedLines (cs : List Char) : List String :=
  ((lines [] cs).map fun line => String.ofList (dropParameters .text line)).mergeSort
    fun a b => decide (a ≤ b)

/-- The text up to the end of the first occurrence of a phrase, or the whole text. -/
def upTo (phrase : List Char) : List Char → List Char
  | [] => []
  | c :: rest =>
    if phrase.isPrefixOf (c :: rest) then phrase else c :: upTo phrase rest

/-- How a list of complaints begins. -/
def complaintHead : String := "Validation error: "

/-- How the description of a failure of the file system begins. -/
def ioHead : String := "storage IO error"

/-- The notice of a text. -/
def ofText (s : String) : String :=
  let cs := s.toList
  if complaintHead.toList.isPrefixOf cs then
    complaintHead ++ String.intercalate "\n" (sortedLines (cs.drop complaintHead.length))
  else String.ofList (upTo ioHead.toList cs)

end ContestPlatform.Notice
