import ContestPlatform.Contest.Basic
import ContestPlatform.IntList
import ContestPlatform.Leaderboard.Basic
import ContestPlatform.Registration.Basic
import ContestPlatform.Submission.Basic

/-!
# Rows

What the tables keep of the values of the platform. A timestamp column keeps whole microseconds, and
lists of cohorts and choices are kept as text, so a value that is read back may differ from the one
that was written. Texts with a NUL and instants before the first timestamp cannot be kept at all.
-/

namespace ContestPlatform.Database

/-- A text that a column can hold. -/
def isStorable (s : String) : Bool :=
  !s.toList.contains '\x00'

/-- A contest as its table keeps it. -/
structure ContestRow where
  id : Uuid
  name : String
  description : String
  registrationStart : Stamp
  registrationEnd : Stamp
  start : Stamp
  finish : Stamp
  /-- The cohorts as text. -/
  eligible : String
deriving DecidableEq, Inhabited

/-- A registration as its table keeps it. -/
structure RegistrationRow where
  contestId : Uuid
  userId : Uuid
  registeredAt : Stamp
deriving DecidableEq, Inhabited

/-- A submission as its table keeps it. -/
structure SubmissionRow where
  id : Uuid
  userId : Uuid
  contestId : Uuid
  problemId : Uuid
  kind : ProblemKind
  language : Option String
  /-- The choices as text. -/
  choices : String
  /-- The state as the grader writes it. -/
  status : String
  createdAt : Stamp
  runtime : Option Int64
  memory : Option Int64
deriving DecidableEq, Inhabited

/-- The result of a test case as its table keeps it. -/
structure ResultRow where
  id : Uuid
  submissionId : Uuid
  testCaseId : Uuid
  status : String
  runtime : Option Int64
  memory : Option Int64
  createdAt : Stamp
deriving DecidableEq, Inhabited

/-- An entry of a leaderboard. -/
structure RankingRow where
  contestId : Uuid
  userId : Uuid
  score : Int32
  flags : LeaderboardFlags
deriving DecidableEq, Inhabited

namespace ContestRow

/-- What the table keeps of a contest, if it can keep it. -/
def ofContest? (c : Contest) : Option ContestRow := do
  guard (isStorable c.name && isStorable c.description)
  return {
    id := c.id
    name := c.name
    description := c.description
    registrationStart := ← c.registrationStart.stamp?
    registrationEnd := ← c.registrationEnd.stamp?
    start := ← c.start.stamp?
    finish := ← c.finish.stamp?
    eligible := IntList.plain c.eligible }

/-- The contest that is read back. Every instant of the row is taken to be one that can be told, of
    a year up to 262142. -/
def contest (r : ContestRow) : Contest where
  id := r.id
  name := r.name
  description := r.description
  registrationStart := .ofStamp r.registrationStart
  registrationEnd := .ofStamp r.registrationEnd
  start := .ofStamp r.start
  finish := .ofStamp r.finish
  eligible := IntList.read r.eligible

end ContestRow

/-- A problem that its table can keep. The table keeps every field as it is. -/
def isStorableProblem (p : Problem) : Bool :=
  isStorable p.name && isStorable p.contentKey

namespace SubmissionRow

/-- What the table keeps of a submission, if it can keep it. -/
def ofSubmission? (s : Submission) : Option SubmissionRow := do
  guard (s.language.all isStorable)
  return {
    id := s.id
    userId := s.userId
    contestId := s.contestId
    problemId := s.problemId
    kind := s.kind
    language := s.language
    choices := IntList.braced s.choices
    status := s.state.name
    createdAt := ← s.createdAt.stamp?
    runtime := s.runtime
    memory := s.memory }

/-- The submission that is read back, if its state is known. -/
def submission? (r : SubmissionRow) : Option Submission := do
  return {
    id := r.id
    userId := r.userId
    contestId := r.contestId
    problemId := r.problemId
    kind := r.kind
    language := r.language
    choices := IntList.read r.choices
    state := ← SubmissionState.ofText? r.status
    createdAt := .ofStamp r.createdAt
    runtime := r.runtime
    memory := r.memory }

/-- What is polled for, if the state is known. -/
def status? (r : SubmissionRow) : Option SubmissionStatus :=
  (SubmissionState.ofText? r.status).map fun state => ⟨r.id, r.userId, state⟩

end SubmissionRow

/-- The result that is read back. -/
def ResultRow.result (r : ResultRow) : TestResult where
  id := r.id
  submissionId := r.submissionId
  testCaseId := r.testCaseId
  status := r.status
  runtime := r.runtime
  memory := r.memory
  createdAt := .ofStamp r.createdAt

end ContestPlatform.Database
