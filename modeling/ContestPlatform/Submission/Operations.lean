import ContestPlatform.Service.Basic

/-!
# Operations on submissions

A submission has its row first and then, if it is code, its text in the content store under its
identifier. If the text cannot be written the row stays pending without code.
-/

namespace ContestPlatform.Submission

open Service

/-- The number of submissions on a page. -/
def pageSize : Nat := 20

/-- The fault of a submission that does not exist. -/
def missing (id : Uuid) : Fault :=
  .notFound .submission id.text

/-- The code that is to be stored: that of a code submission, which has to be there. -/
def requiredCode (new : NewSubmission) : Service (Option String) :=
  match new.kind with
  | .code => some <$> found (.validation .codeMissing) new.code
  | .mcq => return none

/-- Record a new submission of a user who may see the problem. -/
def create (userId : Uuid) (new : NewSubmission) : Service Submission := do
  let code ← requiredCode new
  let problem ← found (.notFound .problem new.problemId.text)
    (← database (.findProblem new.contestId new.problemId))
  if problem.kind ≠ new.kind then throw (.validation (.kindMismatch problem.kind))
  let id ← freshId
  let submission := ofNew id userId (← now) new
  database (.insertSubmission submission)
  if let some body := code then
    content (.put (codeKey id) body .createOnly)
  return submission

/-- What is polled for. -/
def status (id : Uuid) : Service SubmissionStatus := do
  found (missing id) (← database (.submissionStatus id))

/-- A submission with its code and the results of its test cases. -/
def details (id : Uuid) : Service SubmissionDetails := do
  let submission ← found (missing id) (← database (.findSubmission id))
  let code ←
    match submission.kind with
    | .code => some <$> content (.get (codeKey submission.id))
    | .mcq => pure none
  return ⟨submission, code, ← database (.testResults id)⟩

/-- One page of a user's submissions to a problem, latest first. -/
def list (userId problemId : Uuid) (page : UInt32) : Service (List Submission) :=
  database (.submissionPage userId problemId pageSize (page.toNat * pageSize))

end ContestPlatform.Submission
