import ContestPlatform.Contest.Json
import ContestPlatform.Contest.Operations
import ContestPlatform.Leaderboard.Operations
import ContestPlatform.Problem.Operations
import ContestPlatform.Registration.Json
import ContestPlatform.Registration.Operations
import ContestPlatform.Submission.Json
import ContestPlatform.Submission.Operations

/-!
# Operations as values

The service operations with their arguments, so that one can be chosen from outside, and their
results as JSON.
-/

namespace ContestPlatform

/-- A service operation and its arguments. -/
inductive Operation where
  | createContest (terms : ContestTerms)
  | updateContest (id : Uuid) (terms : ContestTerms)
  | deleteContest (id : Uuid)
  | getContest (id : Uuid) (viewer : Option Uuid)
  | listContests (page : UInt32)
  | checkVisibility (contestId userId : Uuid)
  | register (contestId userId : Uuid)
  | unregister (contestId userId : Uuid)
  | isRegistered (contestId userId : Uuid)
  | listRegistrations (contestId : Uuid)
  | createProblem (contestId : Uuid) (new : NewProblem)
  | updateProblem (contestId problemId : Uuid) (change : ProblemChange)
  | deleteProblem (contestId problemId : Uuid)
  | getProblem (contestId problemId : Uuid)
  | listProblems (contestId : Uuid)
  | createSubmission (userId : Uuid) (new : NewSubmission)
  | submissionStatus (id : Uuid)
  | submissionDetails (id : Uuid)
  | listSubmissions (userId problemId : Uuid) (page : UInt32)
  | updateLeaderboard (contestId userId : Uuid) (patch : LeaderboardPatch)
  | isAdmin (userId : Uuid)
deriving DecidableEq

namespace Operation

/-- The result of an operation that gives nothing back. -/
def nothing : Unit → Json :=
  fun () => .null

/-- The JSON form of a list. -/
def listToJson {α : Type} (write : α → Json) (items : List α) : Json :=
  .list (items.map write)

/-- The operation, with its result as JSON. -/
def run : Operation → Service Json
  | .createContest terms => Contest.toJson <$> Contest.create terms
  | .updateContest id terms => Contest.toJson <$> Contest.update id terms
  | .deleteContest id => nothing <$> Contest.delete id
  | .getContest id viewer => ContestDetail.toJson <$> Contest.get id viewer
  | .listContests page => listToJson ContestDetail.toJson <$> Contest.list page
  | .checkVisibility contestId userId => Contest.toJson <$> Contest.checkVisibility contestId userId
  | .register contestId userId => nothing <$> Registration.register contestId userId
  | .unregister contestId userId => nothing <$> Registration.unregister contestId userId
  | .isRegistered contestId userId => Json.bool <$> Registration.isRegistered contestId userId
  | .listRegistrations contestId =>
    listToJson RegistrationEntry.toJson <$> Registration.list contestId
  | .createProblem contestId new => Problem.toJson <$> Problem.create contestId new
  | .updateProblem contestId id change => Problem.toJson <$> Problem.update contestId id change
  | .deleteProblem contestId id => nothing <$> Problem.delete contestId id
  | .getProblem contestId id => ProblemStatement.toJson <$> Problem.get contestId id
  | .listProblems contestId => listToJson ProblemOverview.toJson <$> Problem.list contestId
  | .createSubmission userId new => Submission.toJson <$> Submission.create userId new
  | .submissionStatus id => SubmissionStatus.toJson <$> Submission.status id
  | .submissionDetails id => SubmissionDetails.toJson <$> Submission.details id
  | .listSubmissions userId problemId page =>
    listToJson Submission.toJson <$> Submission.list userId problemId page
  | .updateLeaderboard contestId userId patch =>
    nothing <$> Leaderboard.update contestId userId patch
  | .isAdmin userId => Json.bool <$> Service.database (.isAdmin userId)

end Operation

end ContestPlatform
