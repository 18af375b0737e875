import ContestPlatform.Json.Numeral
import ContestPlatform.Text.Hex

/-!
# JSON values

The values of JSON and their printed form: members in the order in which they stand, no blanks,
and in strings only the characters escaped that have to be.
-/

namespace ContestPlatform

/-- A JSON value. -/
inductive Json where
  | null
  | bool (b : Bool)
  | number (n : Numeral)
  | text (s : String)
  | list (items : List Json)
  | object (members : List (String × Json))
deriving Inhabited

namespace Json

/-- The number of an integer. -/
def int (n : Int) : Json :=
  .number (Numeral.ofInt n)

/-- The number of a natural number. -/
def nat (n : Nat) : Json :=
  int n

/-- A value that may be absent; its absence is written as null. -/
def orNull {α : Type} (write : α → Json) : Option α → Json
  | none => .null
  | some a => write a

/-- A member that is left out when its value is absent. -/
def optional {α : Type} (name : String) (write : α → Json) : Option α → List (String × Json)
  | none => []
  | some a => [(name, write a)]

/-- The value of a member; of several with one name the last counts. -/
def get? (j : Json) (name : String) : Option Json :=
  match j with
  | .object members => (members.findRev? fun m => m.1 == name).map Prod.snd
  | _ => none

/-! ## Printing -/

/-- One character of a string. -/
def escape (c : Char) : List Char :=
  if c = '"' then ['\\', '"']
  else if c = '\\' then ['\\', '\\']
  else if c = '\n' then ['\\', 'n']
  else if c = '\r' then ['\\', 'r']
  else if c = '\t' then ['\\', 't']
  else if c = '\x08' then ['\\', 'b']
  else if c = '\x0c' then ['\\', 'f']
  else if c.toNat < 0x20 then
    ['\\', 'u', '0', '0', Text.Hex.lower (c.toNat / 16), Text.Hex.lower (c.toNat % 16)]
  else [c]

/-- A string in quotes. -/
def quote (s : String) : List Char :=
  '"' :: s.toList.flatMap escape ++ ['"']

/-- Printed items with commas between them. -/
def commas : List (List Char) → List Char
  | [] => []
  | [x] => x
  | x :: y :: rest => x ++ ',' :: commas (y :: rest)

mutual

/-- The printed value. -/
def render : Json → List Char
  | .null => "null".toList
  | .bool true => "true".toList
  | .bool false => "false".toList
  | .number n => n.render
  | .text s => quote s
  | .list items => '[' :: commas (renderItems items) ++ [']']
  | .object members => '{' :: commas (renderMembers members) ++ ['}']

/-- The printed items of a list. -/
def renderItems : List Json → List (List Char)
  | [] => []
  | j :: rest => render j :: renderItems rest

/-- The printed members of an object. -/
def renderMembers : List (String × Json) → List (List Char)
  | [] => []
  | (name, j) :: rest => (quote name ++ ':' :: render j) :: renderMembers rest

end

/-- The printed value as a text. -/
def print (j : Json) : String :=
  String.ofList j.render

end Json

end ContestPlatform
