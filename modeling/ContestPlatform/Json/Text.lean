import ContestPlatform.Json.Token
import ContestPlatform.Json.Value

/-!
# JSON values from text

Reading a text as a JSON value of any shape. Containers may nest up to 127 levels, numerals must
not be too large, and of several members of one name the last counts.
-/

namespace ContestPlatform.Json

/-- A container that is not complete. -/
inductive Frame where
  /-- A list and its items so far, last one first. -/
  | list (done : List Json)
  /-- An object, its members so far, and the name of the member that comes next. -/
  | object (done : List (String × Json)) (name : String)

/-- What is wanted next. -/
inductive Wanted where
  | value
  | firstItem
  | firstName
  | name
  | colon
  | next

/-- The greatest number of containers within each other. -/
def deepest : Nat := 127

/-- Add a member, in the place of an earlier one of its name. -/
def setMember (members : List (String × Json)) (name : String) (value : Json) :
    List (String × Json) :=
  if members.any (·.1 == name) then
    members.map fun m => if m.1 == name then (name, value) else m
  else members ++ [(name, value)]

/-- Put a finished value into the innermost open container. -/
def place (value : Json) : List Frame → List Frame
  | .list done :: outer => .list (value :: done) :: outer
  | .object done name :: outer => .object (setMember done name value) name :: outer
  | [] => []

/-- Give the innermost open container a name for the member that comes next. -/
def rename (name : String) : List Frame → List Frame
  | .object done _ :: outer => .object done name :: outer
  | frames => frames

/-- Read the tokens of one value from its open containers, innermost first. -/
def assemble (frames : List Frame) (wanted : Wanted) : List Token → Option Json
  | [] => none
  | t :: ts =>
    let finish (value : Json) (outer : List Frame) : Option Json :=
      if outer.isEmpty then (if ts.isEmpty then some value else none)
      else assemble (place value outer) .next ts
    let begin_ (frame : Frame) (wanted : Wanted) : Option Json :=
      if frames.length < deepest then assemble (frame :: frames) wanted ts else none
    let scalar : Option Json :=
      match t with
      | .null => some .null
      | .bool b => some (.bool b)
      | .text (some s) => some (.text s)
      | .number n => if n.overflows then none else some (.number n)
      | _ => none
    match wanted, t, frames with
    | .colon, .colon, _ => assemble frames .value ts
    | .name, .text (some s), _ | .firstName, .text (some s), _ => assemble (rename s frames) .colon ts
    | .firstName, .closeBrace, .object done _ :: outer => finish (.object done) outer
    | .firstItem, .closeBracket, .list done :: outer => finish (.list done.reverse) outer
    | .next, .closeBrace, .object done _ :: outer => finish (.object done) outer
    | .next, .closeBracket, .list done :: outer => finish (.list done.reverse) outer
    | .next, .comma, .object _ _ :: _ => assemble frames .name ts
    | .next, .comma, .list _ :: _ => assemble frames .value ts
    | .value, .openBrace, _ | .firstItem, .openBrace, _ => begin_ (.object [] "") .firstName
    | .value, .openBracket, _ | .firstItem, .openBracket, _ => begin_ (.list []) .firstItem
    | .value, _, _ | .firstItem, _, _ => scalar.bind fun value => finish value frames
    | _, _, _ => none

/-- Read a whole text as a JSON value. -/
def ofText? (s : String) : Option Json :=
  assemble [] .value (Token.scan s.toList)

end ContestPlatform.Json
