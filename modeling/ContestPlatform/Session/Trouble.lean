import ContestPlatform.Service.Basic

/-!
# Planned trouble

Calls that fail on purpose. Trouble is planned for one kind of call, strikes the next call of that
kind, and is over then.
-/

namespace ContestPlatform.Session

/-- The kinds of calls that trouble can be planned for. -/
inductive Target where
  | putContent
  | getContent
  | deleteContent
  | insertProblem
  | findProblem
  | replaceProblem
  | removeProblem
  | listProblems
deriving DecidableEq, Inhabited

/-- The kinds of trouble. -/
inductive Trouble where
  /-- The content store fails. -/
  | io
  | notFound
  | alreadyExists
  | encoding
  | backend
  /-- The call is never answered. -/
  | hang
  /-- The database fails. -/
  | database
  /-- The database answers as if there were no such row. -/
  | vanish
deriving DecidableEq, Inhabited

namespace Target

/-- The targets by their names. -/
def table : List (String × Target) :=
  [("content.put", .putContent), ("content.get", .getContent),
   ("content.delete", .deleteContent), ("problems.create", .insertProblem),
   ("problems.find", .findProblem), ("problems.update", .replaceProblem),
   ("problems.delete", .removeProblem), ("problems.list_overviews", .listProblems)]

/-- The name of a target. -/
def name (t : Target) : String :=
  ((table.find? fun e => e.2 = t).map (·.1)).getD ""

/-- The target of a call. -/
def ofCall? : Call → Option Target
  | .content (.put ..) => some .putContent
  | .content (.get _) => some .getContent
  | .content (.delete _) => some .deleteContent
  | .database (.insertProblem _) => some .insertProblem
  | .database (.findProblem ..) => some .findProblem
  | .database (.replaceProblem _) => some .replaceProblem
  | .database (.removeProblem ..) => some .removeProblem
  | .database (.overviews _) => some .listProblems
  | _ => none

end Target

namespace Trouble

/-- The kinds of trouble by their names. -/
def table : List (String × Trouble) :=
  [("io", .io), ("not_found", .notFound), ("already_exists", .alreadyExists),
   ("encoding", .encoding), ("backend", .backend), ("hang", .hang), ("database", .database),
   ("vanish", .vanish)]

/-- The fault of a call of the content store. -/
def contentFault (t : Trouble) (target : Target) (key : String) : ContentFault :=
  match t with
  | .notFound => .notFound key
  | .alreadyExists => .alreadyExists key
  | .encoding => .encoding key
  | .backend => .backend (target.name ++ " refused")
  | _ => .io "refused"

/-- The answer to a call of the database as if there were no such row. -/
def absent : (call : Database.Call) → call.Answer
  | .insertProblem _ => .ok ()
  | .findProblem .. => .ok none
  | .replaceProblem _ => .ok false
  | .removeProblem .. => .ok false
  | .overviews _ => .ok []
  | _ => .error (.database (.other "refused"))

/-- The answer to a call that is struck; there is none if the trouble is that it hangs. -/
def answer? (t : Trouble) (target : Target) : (call : Call) → Option call.Answer
  | .content call =>
    if t = .hang then none else some (.error (t.contentFault target call.key))
  | .database call =>
    match t with
    | .hang => none
    | .vanish => some (absent call)
    | _ => some (.error (.database (.other "refused")))
  | .now => none
  | .freshId => none

end Trouble

end ContestPlatform.Session
