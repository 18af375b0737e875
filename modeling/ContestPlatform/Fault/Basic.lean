import ContestPlatform.Content.Store
import ContestPlatform.Contest.Basic
import ContestPlatform.Fault.Notice
import ContestPlatform.Problem.Basic
import ContestPlatform.Input.Complaint
import ContestPlatform.Text.Decimal
import ContestPlatform.Uuid

/-!
# Faults

Why an operation of the platform failed. Every fault has a code, a kind that fixes its HTTP status,
a full text for operators, and a text for callers, which says nothing of the infrastructure.
-/

namespace ContestPlatform

/-- What a fault is about. -/
inductive Entity where
  | contest
  | problem
  | submission
  | user
  | leaderboardEntry
deriving DecidableEq, Inhabited

/-- The name of an entity. -/
def Entity.name : Entity → String
  | .contest => "contest"
  | .problem => "problem"
  | .submission => "submission"
  | .user => "user"
  | .leaderboardEntry => "leaderboard entry"

/-- Why input was refused. -/
inductive Objection where
  /-- Registration ends before it starts. -/
  | registrationWindow
  /-- The contest does not start before it ends. -/
  | runningWindow
  /-- A code submission has no code. -/
  | codeMissing
  /-- The problem expects a submission of another kind. -/
  | kindMismatch (expected : ProblemKind)
  /-- A patch supplies nothing. -/
  | nothingToUpdate
  /-- Fields break rules. -/
  | fields (complaints : List Input.FieldComplaints)
  /-- Something else. -/
  | other (text : String)

/-- What an objection says. -/
def Objection.text : Objection → String
  | .registrationWindow => "registration must start before it ends"
  | .runningWindow => "contest must start before it ends"
  | .codeMissing => "code submissions must include code"
  | .kindMismatch expected => "problem expects a " ++ expected.name ++ " submission"
  | .nothingToUpdate => "no fields to update"
  | .fields complaints => Input.FieldComplaints.text complaints
  | .other text => text

/-- Why the database failed. -/
inductive DatabaseFault where
  /-- A row with the same key exists. -/
  | duplicate
  /-- A row that is referred to does not exist. -/
  | dangling
  /-- A row is still referred to. -/
  | referenced
  /-- A value is not one of those that a column allows. -/
  | check
  /-- A value cannot be stored at all. -/
  | unstorable
  /-- A query that has to give a row gave none. -/
  | noRow
  /-- Something else. -/
  | other (text : String)
deriving DecidableEq, Inhabited

/-- What a failure of the database says. -/
def DatabaseFault.text : DatabaseFault → String
  | .duplicate => "duplicate key"
  | .dangling => "a row that is referred to does not exist"
  | .referenced => "the row is still referred to"
  | .check => "value not allowed"
  | .unstorable => "value cannot be stored"
  | .noRow => "no rows returned by a query that expected to return at least one row"
  | .other text => text

/-- Why an operation failed. -/
inductive Fault where
  /-- An entity does not exist. -/
  | notFound (entity : Entity) (id : String)
  /-- The user is not registered, and was about to withdraw. -/
  | notRegistered (contestId userId : Uuid)
  /-- The user is registered already. -/
  | alreadyRegistered (contestId userId : Uuid)
  /-- The contest cannot be deleted before its problems. -/
  | contestHasProblems (contestId : Uuid)
  /-- The registration window is not open. -/
  | registrationClosed (contestId : Uuid)
  /-- The cohort of the user may not register. -/
  | invalidYear (contestId : Uuid) (year : Int32)
  /-- The contest has not started. -/
  | contestNotRunning (contestId : Uuid)
  /-- The user is not registered, and so does not see the problems. -/
  | userNotRegistered (contestId userId : Uuid)
  /-- An entity belongs to another user. -/
  | notOwner (entity : Entity) (id : Uuid)
  /-- The caller is not an administrator. -/
  | adminRequired
  /-- The caller is unknown. -/
  | unauthorized
  /-- The input was refused. -/
  | validation (objection : Objection)
  /-- The content store failed. -/
  | content (fault : ContentFault)
  /-- Storage failed in another way. -/
  | storage (text : String)
  /-- The database failed. -/
  | database (fault : DatabaseFault)
  /-- What is stored makes no sense. -/
  | internal (reason : String)

/-- The kinds of faults. -/
inductive FaultKind where
  | notFound
  | conflict
  | forbidden
  | unauthorized
  | validation
  | infrastructure
deriving DecidableEq, Inhabited

namespace FaultKind

/-- The name of a kind. -/
def name : FaultKind → String
  | .notFound => "not_found"
  | .conflict => "conflict"
  | .forbidden => "forbidden"
  | .unauthorized => "unauthorized"
  | .validation => "validation"
  | .infrastructure => "infrastructure"

/-- The HTTP status of a kind. -/
def status : FaultKind → Nat
  | .notFound => 404
  | .conflict => 409
  | .forbidden => 403
  | .unauthorized => 401
  | .validation => 400
  | .infrastructure => 500

end FaultKind

namespace Fault

/-- The kind of a fault. -/
def kind : Fault → FaultKind
  | .notFound .. | .notRegistered .. | .content (.notFound _) => .notFound
  | .alreadyRegistered .. | .contestHasProblems _ | .content (.alreadyExists _) => .conflict
  | .registrationClosed _ | .invalidYear .. | .contestNotRunning _ | .userNotRegistered ..
  | .notOwner .. | .adminRequired => .forbidden
  | .unauthorized => .unauthorized
  | .validation _ => .validation
  | .content _ | .storage _ | .database _ | .internal _ => .infrastructure

/-- The code of a fault. -/
def code : Fault → String
  | .notFound .. => "NOT_FOUND"
  | .notRegistered .. => "NOT_REGISTERED"
  | .alreadyRegistered .. => "ALREADY_REGISTERED"
  | .contestHasProblems _ => "CONTEST_HAS_PROBLEMS"
  | .registrationClosed _ => "REGISTRATION_CLOSED"
  | .invalidYear .. => "INVALID_YEAR"
  | .contestNotRunning _ => "CONTEST_NOT_RUNNING"
  | .userNotRegistered .. => "USER_NOT_REGISTERED"
  | .notOwner .. => "NOT_OWNER"
  | .adminRequired => "ADMIN_REQUIRED"
  | .unauthorized => "UNAUTHORIZED"
  | .validation _ => "VALIDATION_ERROR"
  | .content (.notFound _) => "CONTENT_NOT_FOUND"
  | .content (.alreadyExists _) => "KEY_ALREADY_EXISTS"
  | .content _ | .storage _ => "STORAGE_ERROR"
  | .database _ => "DATABASE_ERROR"
  | .internal _ => "INTERNAL_ERROR"

/-- The HTTP status of a fault. -/
def status (f : Fault) : Nat :=
  f.kind.status

/-- The full text of a fault. -/
def text : Fault → String
  | .notFound entity id => entity.name ++ " not found: " ++ id
  | .notRegistered contestId userId =>
    "user " ++ userId.text ++ " is not registered for contest " ++ contestId.text
  | .alreadyRegistered contestId userId =>
    "user " ++ userId.text ++ " is already registered for contest " ++ contestId.text
  | .contestHasProblems contestId => "contest " ++ contestId.text ++ " still has problems"
  | .registrationClosed _ => "contest registration is closed"
  | .invalidYear _ year =>
    "cohort " ++ String.ofList (Text.Decimal.ofInt year.toInt) ++
      " is not eligible for this contest"
  | .contestNotRunning _ => "contest is not running"
  | .userNotRegistered .. => "user not registered"
  | .notOwner entity id => entity.name ++ " " ++ id.text ++ " belongs to another user"
  | .adminRequired => "admin access required"
  | .unauthorized => "Unauthorized"
  | .validation objection => Notice.complaintHead ++ objection.text
  | .content (.notFound key) => "content key not found: " ++ key
  | .content (.alreadyExists key) => "content key already exists: " ++ key
  | .content fault => "Storage error: " ++ fault.message
  | .storage text => "Storage error: " ++ text
  | .database fault => "Database error: " ++ fault.text
  | .internal _ => "Internal server error"

/-- The text for callers. -/
def publicText (f : Fault) : String :=
  match f.kind, f with
  | .infrastructure, .database _ => "A database error occurred"
  | .infrastructure, .internal _ => "An internal error occurred"
  | .infrastructure, _ => "A storage error occurred"
  | _, f => f.text

/-- The notice of a fault. What the database says is not part of it. -/
def notice? (f : Fault) : Option String :=
  match f with
  | .database _ => none
  | f => some (Notice.ofText f.text)

end Fault

/-- The objection to the windows of a contest. -/
def WindowFlaw.objection : WindowFlaw → Objection
  | .registration => .registrationWindow
  | .running => .runningWindow

end ContestPlatform
