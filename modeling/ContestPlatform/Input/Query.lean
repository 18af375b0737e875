import ContestPlatform.Text.Decimal
import ContestPlatform.Text.Percent
import ContestPlatform.Uuid

/-!
# Queries

The part of an address after the question mark: names and values between ampersands. A name that is
not known is ignored, a known one may stand once.
-/

namespace ContestPlatform.Input

/-- The query of the list of contests. -/
structure ContestsQuery where
  page : Option UInt32
deriving DecidableEq, Inhabited

/-- The query of the list of submissions. -/
structure SubmissionsQuery where
  problemId : Uuid
  page : Option UInt32
deriving DecidableEq, Inhabited

/-- The text before the first equals sign and the text after it. -/
def splitPair (cs : List Char) : List Char × List Char :=
  (cs.takeWhile (· != '='), (cs.dropWhile (· != '=')).drop 1)

/-- The names and values of a query. -/
def pairs (query : String) : List (String × String) :=
  ((query.toList.splitOn '&').filter (!·.isEmpty)).map fun part =>
    let (name, value) := splitPair part
    (Text.Percent.decodeForm (String.ofList name), Text.Percent.decodeForm (String.ofList value))

/-- The value of a name: `none` if the name is repeated, and `some none` if it is absent. -/
def value? (ps : List (String × String)) (name : String) : Option (Option String) :=
  match ps.filter (·.1 == name) with
  | [] => some none
  | [p] => some (some p.2)
  | _ => none

/-- The page of a query, counted from zero. -/
def page? (ps : List (String × String)) : Option (Option UInt32) :=
  match value? ps "page" with
  | none => none
  | some none => some none
  | some (some s) => (Text.Decimal.word32? s.toList).map some

/-- Read the query of the list of contests. -/
def ContestsQuery.ofText? (query : String) : Option ContestsQuery :=
  (page? (pairs query)).map ContestsQuery.mk

/-- Read the query of the list of submissions. -/
def SubmissionsQuery.ofText? (query : String) : Option SubmissionsQuery := do
  let ps := pairs query
  let page ← page? ps
  let problemId ← (← value? ps "problem_id").bind Uuid.ofText?
  return ⟨problemId, page⟩

end ContestPlatform.Input
