import ContestPlatform.Database.Basic

/-!
# Calls of the database

What the operations of the platform ask of the database, one call at a time, and how the tables
answer. A call that fails changes nothing.
-/

namespace ContestPlatform.Database

/-- A call of the database. -/
inductive Call where
  | insertContest (contest : Contest)
  | findContest (id : Uuid)
  | contestExists (id : Uuid)
  | replaceContest (contest : Contest)
  | removeContest (id : Uuid)
  | contestPage (limit offset : Nat)
  | insertRegistration (contestId userId : Uuid) (registeredAt : Instant)
  | removeRegistration (contestId userId : Uuid)
  | isRegistered (contestId userId : Uuid)
  | registrations (contestId : Uuid)
  | insertProblem (problem : Problem)
  | findProblem (contestId id : Uuid)
  | replaceProblem (problem : Problem)
  | removeProblem (contestId id : Uuid)
  | overviews (contestId : Uuid)
  | insertSubmission (submission : Submission)
  | findSubmission (id : Uuid)
  | submissionStatus (id : Uuid)
  | testResults (submissionId : Uuid)
  | submissionPage (userId problemId : Uuid) (limit offset : Nat)
  | patchRanking (contestId userId : Uuid) (patch : LeaderboardPatch)
  | isAdmin (userId : Uuid)
  | findProfile (userId : Uuid)
deriving DecidableEq

/-- What is given back if a call succeeds. A call that replaces or removes a row, and the insertion
    of a registration, tell whether they found or added one. -/
@[reducible] def Call.Result : Call → Type
  | .insertContest _ | .insertProblem _ | .insertSubmission _ => Unit
  | .findContest _ => Option Contest
  | .contestPage .. => List Contest
  | .registrations _ => List RegistrationEntry
  | .findProblem .. => Option Problem
  | .overviews _ => List ProblemOverview
  | .findSubmission _ => Option Submission
  | .submissionStatus _ => Option SubmissionStatus
  | .testResults _ => List TestResult
  | .submissionPage .. => List Submission
  | .findProfile _ => Option UserProfile
  | .contestExists _ | .replaceContest _ | .removeContest _ | .insertRegistration ..
  | .removeRegistration .. | .isRegistered .. | .replaceProblem _ | .removeProblem ..
  | .patchRanking .. | .isAdmin _ => Bool

/-- The answer to a call. -/
abbrev Call.Answer (c : Call) : Type :=
  Except Fault c.Result

/-- The outcome of a change that gives nothing back. -/
def changed (db : Database) : Except Fault Database → Except Fault Unit × Database
  | .ok db => (.ok (), db)
  | .error fault => (.error fault, db)

/-- The outcome of a change that gives something back. -/
def changedWith {α : Type} (db : Database) :
    Except Fault (α × Database) → Except Fault α × Database
  | .ok (a, db) => (.ok a, db)
  | .error fault => (.error fault, db)

/-- Answer a call. -/
def answer (db : Database) : (call : Call) → call.Answer × Database
  | .insertContest c => db.changed (db.insertContest c)
  | .findContest id => (.ok (db.contest? id), db)
  | .contestExists id => (.ok (db.hasContest id), db)
  | .replaceContest c => db.changedWith (db.replaceContest c)
  | .removeContest id => db.changedWith (db.removeContest id)
  | .contestPage limit offset => (.ok (db.contestPage limit offset), db)
  | .insertRegistration contestId userId registeredAt =>
    db.changedWith (db.insertRegistration contestId userId registeredAt)
  | .removeRegistration contestId userId =>
    db.changedWith (.ok (db.removeRegistration contestId userId))
  | .isRegistered contestId userId => (.ok (db.isRegistered contestId userId), db)
  | .registrations contestId => (.ok (db.registrationsOf contestId), db)
  | .insertProblem p => db.changed (db.insertProblem p)
  | .findProblem contestId id => (.ok (db.problem? contestId id), db)
  | .replaceProblem p => db.changedWith (db.replaceProblem p)
  | .removeProblem contestId id => db.changedWith (.ok (db.removeProblem contestId id))
  | .overviews contestId => (.ok (db.overviewsOf contestId), db)
  | .insertSubmission s => db.changed (db.insertSubmission s)
  | .findSubmission id => (db.submission? id, db)
  | .submissionStatus id => (db.status? id, db)
  | .testResults submissionId => (.ok (db.resultsOf submissionId), db)
  | .submissionPage userId problemId limit offset =>
    (db.submissionPage userId problemId limit offset, db)
  | .patchRanking contestId userId patch =>
    db.changedWith (.ok (db.patchRanking contestId userId patch))
  | .isAdmin userId => (.ok (db.isAdmin userId), db)
  | .findProfile userId => (.ok (db.profile? userId), db)

end ContestPlatform.Database
