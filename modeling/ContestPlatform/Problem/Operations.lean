import ContestPlatform.Contest.Operations
import ContestPlatform.Problem.Json

/-!
# Operations on problems

The metadata of a problem is a row of the database and its statement a document in the content
store. A new problem has its document before its row, so a row never points at nothing; a change
overwrites the document before the row; and a deletion removes the row first, so that the problem is
gone at once. Removing a document that has no row any more is a best effort.
-/

namespace ContestPlatform.Problem

open Service

/-- The fault of a problem that does not exist. -/
def missing (id : Uuid) : Fault :=
  .notFound .problem id.text

/-- The problem with an identifier in a contest. -/
def find (contestId id : Uuid) : Service Problem := do
  found (missing id) (← database (.findProblem contestId id))

/-- The text that is stored for a description. -/
def document (description : String) : String :=
  (ProblemDocument.mk description).print

/-- Remove the document of a problem that has no row; that it fails does not matter. -/
def discardDocument (key : String) : Service Unit := do
  let _ ← attempt (.delete key)

/-- Create a problem with its statement. -/
def create (contestId : Uuid) (new : NewProblem) : Service Problem := do
  if !(← database (.contestExists contestId)) then throw (Contest.missing contestId)
  let problem := ofNew contestId (← freshId) new
  content (.put problem.contentKey (document new.description) .createOnly)
  database (.insertProblem problem)
  return problem

/-- Change a problem. -/
def update (contestId id : Uuid) (change : ProblemChange) : Service Problem := do
  let problem := (← find contestId id).apply change
  if let some description := change.description then
    content (.put problem.contentKey (document description) .overwrite)
  if ← database (.replaceProblem problem) then return problem
  -- The row is gone, and the document was written again.
  if change.description.isSome then discardDocument problem.contentKey
  throw (missing id)

/-- Delete a problem. -/
def delete (contestId id : Uuid) : Service Unit := do
  let problem ← find contestId id
  if !(← database (.removeProblem contestId id)) then throw (missing id)
  discardDocument problem.contentKey

/-- A problem with its statement. -/
def get (contestId id : Uuid) : Service ProblemStatement := do
  let problem ← find contestId id
  let stored ← content (.get problem.contentKey)
  match ProblemDocument.ofText? stored with
  | some document => return problem.statement document.description
  | none => throw (.internal ("malformed problem content at " ++ problem.contentKey))

/-- The problems of a contest without their statements. -/
def list (contestId : Uuid) : Service (List ProblemOverview) := do
  if ← database (.contestExists contestId) then database (.overviews contestId)
  else throw (Contest.missing contestId)

end ContestPlatform.Problem
