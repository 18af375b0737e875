import ContestPlatform.Contest.Basic
import ContestPlatform.Leaderboard.Basic
import ContestPlatform.Problem.Json
import ContestPlatform.Input.Complaint
import ContestPlatform.Submission.Basic

/-!
# What requests have to satisfy

The limits of the platform and the checks of each request. A field that is absent is not checked.
-/

namespace ContestPlatform.Input

/-! ## Limits -/

/-- The greatest number of characters in the name of a contest. -/
def longestContestName : Nat := 200

/-- The greatest number of characters in the name of a problem. -/
def longestProblemName : Nat := 200

/-- The greatest number of characters in the name of a language. -/
def longestLanguage : Nat := 32

/-- The first cohort. -/
def firstCohort : Int32 := 1

/-- The last cohort. -/
def lastCohort : Int32 := 3

/-! ## Checks of single values -/

/-- The rule on the number of characters that a text breaks. -/
def checkLength (min : Nat) (max : Option Nat) (s : String) : List Rule :=
  if min ≤ s.length ∧ max.all (s.length ≤ ·) then [] else [.length min max]

/-- The rule on the least value that a number breaks. -/
def checkRange (min : Nat) (n : Int32) : List Rule :=
  if (min : Int) ≤ n.toInt then [] else [.range min]

/-- A cohort that exists. -/
def isCohort (year : Int32) : Bool :=
  firstCohort ≤ year && year ≤ lastCohort

/-- The rule on cohorts that a list breaks. -/
def checkCohorts (years : List Int32) : List Rule :=
  if years.isEmpty then [.cohortsEmpty]
  else if years.all isCohort then [] else [.cohortRange]

/-- The rule on choices that a list breaks. -/
def checkChoices (choices : List Int32) : List Rule :=
  if choices.all (0 ≤ ·) then [] else [.choiceNegative]

/-- A character of the name of a language. -/
def isLanguageChar (c : Char) : Bool :=
  c.isLower || c.isDigit || c == '+' || c == '#' || c == '_'

/-- The rule on languages that a name breaks. -/
def checkLanguage (s : String) : List Rule :=
  if !s.isEmpty && s.toList.all isLanguageChar then [] else [.language]

/-! ## Checks of requests -/

/-- A field and the rules that it breaks, if there are any. -/
def complain {α : Type} (field : String) (write : α → Json) (rules : α → List Rule) (value : α) :
    List FieldComplaints :=
  match rules value with
  | [] => []
  | broken => [⟨field, write value, broken⟩]

/-- The same for a field that may be absent. -/
def complainOption {α : Type} (field : String) (write : α → Json) (rules : α → List Rule) :
    Option α → List FieldComplaints
  | none => []
  | some value => complain field write rules value

end ContestPlatform.Input

namespace ContestPlatform

open Input

/-- What is wrong with the terms of a contest. -/
def ContestTerms.complaints (t : ContestTerms) : List FieldComplaints :=
  complain "name" .text (checkLength 1 longestContestName) t.name ++
    complain "eligible_to" Json.int32List checkCohorts t.eligible

/-- What is wrong with a new problem. -/
def NewProblem.complaints (p : NewProblem) : List FieldComplaints :=
  complain "name" .text (checkLength 1 longestProblemName) p.name ++
    complain "description" .text (checkLength 1 none) p.description ++
    complain "score" Json.int32 (checkRange 1) p.score ++
    complain "answer" Json.int32List checkChoices p.answer

/-- What is wrong with a change of a problem. -/
def ProblemChange.complaints (c : ProblemChange) : List FieldComplaints :=
  complainOption "name" .text (checkLength 1 longestProblemName) c.name ++
    complainOption "description" .text (checkLength 1 none) c.description ++
    complainOption "score" Json.int32 (checkRange 1) c.score ++
    complainOption "answer" Json.int32List checkChoices c.answer

/-- What is wrong with a submission. -/
def NewSubmission.complaints (s : NewSubmission) : List FieldComplaints :=
  complainOption "language" .text
      (fun name => checkLength 1 longestLanguage name ++ checkLanguage name) s.language ++
    complainOption "code" .text (checkLength 1 none) s.code ++
    complain "choices" Json.int32List checkChoices s.choices

end ContestPlatform
