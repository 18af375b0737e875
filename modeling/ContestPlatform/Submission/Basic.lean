import ContestPlatform.Instant.Basic
import ContestPlatform.Problem.Basic

/-!
# Submissions

What a participant hands in for a problem. A submission starts pending; a grader outside of this
program moves it to a final state and adds the results of single test cases.
-/

namespace ContestPlatform

/-- The states of a submission. -/
inductive SubmissionState where
  | pending
  | accepted
  | wrongAnswer
  | timeLimitExceeded
  | memoryLimitExceeded
  | runtimeError
  | compilationError
deriving DecidableEq, Inhabited

namespace SubmissionState

/-- The states by their names. -/
def table : List (String × SubmissionState) :=
  [("pending", .pending), ("accepted", .accepted), ("wrong_answer", .wrongAnswer),
   ("time_limit_exceeded", .timeLimitExceeded), ("memory_limit_exceeded", .memoryLimitExceeded),
   ("runtime_error", .runtimeError), ("compilation_error", .compilationError)]

/-- The name of a state. -/
def name : SubmissionState → String
  | .pending => "pending"
  | .accepted => "accepted"
  | .wrongAnswer => "wrong_answer"
  | .timeLimitExceeded => "time_limit_exceeded"
  | .memoryLimitExceeded => "memory_limit_exceeded"
  | .runtimeError => "runtime_error"
  | .compilationError => "compilation_error"

/-- The state that a stored text names exactly. -/
def ofText? (s : String) : Option SubmissionState :=
  table.lookup s

/-- What is said of a text that names no state. -/
def unknown (s : String) : String :=
  "unknown submission status: " ++ s

end SubmissionState

/-- A submission. -/
structure Submission where
  id : Uuid
  userId : Uuid
  contestId : Uuid
  problemId : Uuid
  kind : ProblemKind
  language : Option String
  choices : List Int32
  state : SubmissionState
  createdAt : Instant
  runtime : Option Int64
  memory : Option Int64
deriving DecidableEq, Inhabited

/-- What a participant hands in. -/
structure NewSubmission where
  contestId : Uuid
  problemId : Uuid
  kind : ProblemKind
  language : Option String
  code : Option String
  choices : List Int32
deriving DecidableEq, Inhabited

/-- What a participant polls for. -/
structure SubmissionStatus where
  id : Uuid
  userId : Uuid
  state : SubmissionState
deriving DecidableEq, Inhabited

/-- The grader's result for one test case. -/
structure TestResult where
  id : Uuid
  submissionId : Uuid
  testCaseId : Uuid
  status : String
  runtime : Option Int64
  memory : Option Int64
  createdAt : Instant
deriving DecidableEq, Inhabited

/-- A submission with its code and the results of its test cases. -/
structure SubmissionDetails where
  submission : Submission
  code : Option String
  results : List TestResult
deriving DecidableEq, Inhabited

namespace Submission

/-- The key under which the content store keeps the code of a submission. -/
def codeKey (id : Uuid) : String :=
  id.text

/-- The pending submission that a participant hands in. Choices count for multiple choice only. -/
def ofNew (id userId : Uuid) (createdAt : Instant) (new : NewSubmission) : Submission where
  id := id
  userId := userId
  contestId := new.contestId
  problemId := new.problemId
  kind := new.kind
  language := new.language
  choices := match new.kind with
    | .mcq => new.choices
    | .code => []
  state := .pending
  createdAt := createdAt
  runtime := none
  memory := none

end Submission

end ContestPlatform
