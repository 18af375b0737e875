import ContestPlatform.Json.Writer

/-!
# Complaints

The rules that a request is checked against, field by field, and what is said of a field that
breaks one. The fields of a request are checked all of them, and so are the rules of a field.
-/

namespace ContestPlatform.Input

/-- A rule that a field may break. -/
inductive Rule where
  /-- The text has at least `min` and at most `max` characters. -/
  | length (min : Nat) (max : Option Nat)
  /-- The number is at least `min`. -/
  | range (min : Nat)
  /-- There is at least one cohort. -/
  | cohortsEmpty
  /-- Every cohort exists. -/
  | cohortRange
  /-- No choice is negative. -/
  | choiceNegative
  /-- The language is an identifier. -/
  | language
deriving DecidableEq

namespace Rule

/-- The code of a rule. -/
def code : Rule → String
  | .length .. => "length"
  | .range _ => "range"
  | .cohortsEmpty => "cohorts_empty"
  | .cohortRange => "cohort_range"
  | .choiceNegative => "choice_negative"
  | .language => "language"

/-- What is said of a field that breaks a rule, if the rule has words of its own. -/
def message? : Rule → Option String
  | .length .. | .range _ => none
  | .cohortsEmpty => some "At least one cohort must be eligible"
  | .cohortRange => some "Cohorts must be between 1 and 3"
  | .choiceNegative => some "Choices must be non-negative"
  | .language => some "Unsupported language identifier"

/-- What is said of a field that breaks a rule. -/
def text (r : Rule) : String :=
  r.message?.getD ("Validation error: " ++ r.code)

/-- The bounds of a rule. -/
def bounds : Rule → List (String × Json)
  | .length min max => ("min", Json.nat min) :: Json.optional "max" Json.nat max
  | .range min => [("min", Json.nat min)]
  | _ => []

end Rule

/-- A field, its value, and the rules that it breaks, in the order in which they were checked. -/
structure FieldComplaints where
  field : String
  value : Json
  rules : List Rule

namespace FieldComplaints

/-- What is said of a field. -/
def line (f : FieldComplaints) : String :=
  f.field ++ ": " ++ String.intercalate ", " (f.rules.map Rule.text)

/-- What is said of all fields, one line for each. -/
def text (fs : List FieldComplaints) : String :=
  String.intercalate "\n" (fs.map line)

/-- The JSON form of what is said of a field. -/
def toJson (f : FieldComplaints) : Json :=
  .list (f.rules.map fun r => .object
    [("code", .text r.code),
     ("message", Json.orNull .text r.message?),
     ("params", .object (("value", f.value) :: r.bounds))])

end FieldComplaints

end ContestPlatform.Input
