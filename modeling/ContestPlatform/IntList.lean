import ContestPlatform.Text.Blank
import ContestPlatform.Text.Decimal

/-!
# Lists of integers in text columns

A list of integers is stored with commas between its entries, and in one of the columns with braces
around it. Both forms are read alike, and leniently: blanks and empty entries do not count, and
entries that are not 32-bit integers are skipped.
-/

namespace ContestPlatform.IntList

open Text (trim)

/-- The entries with commas between them. -/
def commas (values : List Int32) : List Char :=
  List.intercalate [','] (values.map fun v => Text.Decimal.ofInt v.toInt)

/-- The stored form `1,2`. -/
def plain (values : List Int32) : String :=
  String.ofList (commas values)

/-- The stored form `{1,2}`. -/
def braced (values : List Int32) : String :=
  String.ofList ('{' :: commas values ++ ['}'])

/-- The text without one enclosing pair of braces, if both are there. -/
def unbrace (cs : List Char) : List Char :=
  match cs with
  | '{' :: rest => if rest.getLast? = some '}' then rest.dropLast else cs
  | _ => cs

/-- The entries that are integers, in their order. -/
def entries (cs : List Char) : List Int32 :=
  (cs.splitOn ',').filterMap fun entry => Text.Decimal.int32? (trim entry)

/-- Read either form. -/
def read (raw : String) : List Int32 :=
  entries (unbrace (trim raw.toList))

end ContestPlatform.IntList
