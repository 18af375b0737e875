import ContestPlatform.Database.Row
import ContestPlatform.Fault.Basic

/-!
# The database

All tables, and the operations on them. Each operation is one step: it keeps the keys unique and the
references intact, or it fails and changes nothing. Removing a row removes the rows that refer to
it, except that a contest with problems cannot be removed.
-/

namespace ContestPlatform

open Database

/-- The tables of the platform. -/
structure Database where
  users : List UserProfile
  admins : List Uuid
  contests : List ContestRow
  registrations : List RegistrationRow
  problems : List Problem
  submissions : List SubmissionRow
  results : List ResultRow
  rankings : List RankingRow
deriving DecidableEq, Inhabited

namespace Database

/-- A database without rows. -/
def empty : Database :=
  ⟨[], [], [], [], [], [], [], []⟩

/-- One page of a list. -/
def page {α : Type} (limit offset : Nat) (rows : List α) : List α :=
  (rows.drop offset).take limit

/-! ## Existence -/

/-- There is a user. -/
def hasUser (db : Database) (id : Uuid) : Bool :=
  db.users.any (·.id == id)

/-- There is a contest. -/
def hasContest (db : Database) (id : Uuid) : Bool :=
  db.contests.any (·.id == id)

/-- There is a problem. -/
def hasProblem (db : Database) (id : Uuid) : Bool :=
  db.problems.any (·.id == id)

/-- There is a submission. -/
def hasSubmission (db : Database) (id : Uuid) : Bool :=
  db.submissions.any (·.id == id)

/-- A user is registered for a contest. -/
def isRegistered (db : Database) (contestId userId : Uuid) : Bool :=
  db.registrations.any fun r => r.contestId == contestId && r.userId == userId

/-- A user is an administrator. -/
def isAdmin (db : Database) (userId : Uuid) : Bool :=
  db.admins.contains userId

/-- The profile of a user. -/
def profile? (db : Database) (userId : Uuid) : Option UserProfile :=
  db.users.find? (·.id == userId)

/-! ## Contests -/

/-- Add a contest. -/
def insertContest (db : Database) (c : Contest) : Except Fault Database :=
  match ContestRow.ofContest? c with
  | none => .error (.database .unstorable)
  | some row =>
    if db.hasContest c.id then .error (.database .duplicate)
    else .ok { db with contests := db.contests ++ [row] }

/-- The contest with an identifier. -/
def contest? (db : Database) (id : Uuid) : Option Contest :=
  (db.contests.find? (·.id == id)).map ContestRow.contest

/-- Put a contest in the place of the one with its identifier, and tell whether there is one. -/
def replaceContest (db : Database) (c : Contest) : Except Fault (Bool × Database) :=
  match ContestRow.ofContest? c with
  | none => .error (.database .unstorable)
  | some row =>
    .ok (db.hasContest c.id,
      { db with contests := db.contests.map fun r => if r.id = c.id then row else r })

/-- Remove the submissions that satisfy a test, with their results. -/
def dropSubmissions (db : Database) (p : SubmissionRow → Bool) : Database :=
  let gone := (db.submissions.filter p).map (·.id)
  { db with
    submissions := db.submissions.filter fun s => !p s
    results := db.results.filter fun r => !gone.contains r.submissionId }

/-- Remove a contest with its registrations, submissions and rankings, and tell whether there was
    one. Its problems have to be removed before. -/
def removeContest (db : Database) (id : Uuid) : Except Fault (Bool × Database) :=
  if !db.hasContest id then .ok (false, db)
  else if db.problems.any (·.contestId == id) then .error (.contestHasProblems id)
  else
    let db := db.dropSubmissions (·.contestId == id)
    .ok (true,
      { db with
        contests := db.contests.filter (·.id != id)
        registrations := db.registrations.filter (·.contestId != id)
        rankings := db.rankings.filter (·.contestId != id) })

/-- Later starts come first; of two equal ones the greater identifier. -/
def startsLater (a b : ContestRow) : Bool :=
  decide (b.start < a.start ∨ (b.start = a.start ∧ b.id ≤ a.id))

/-- One page of all contests, latest start first. -/
def contestPage (db : Database) (limit offset : Nat) : List Contest :=
  (page limit offset (db.contests.mergeSort startsLater)).map ContestRow.contest

/-! ## Registrations -/

/-- Add a registration unless it is there, and tell whether it was added. -/
def insertRegistration (db : Database) (contestId userId : Uuid) (registeredAt : Instant) :
    Except Fault (Bool × Database) :=
  match registeredAt.stamp? with
  | none => .error (.database .unstorable)
  | some stamp =>
    if db.isRegistered contestId userId then .ok (false, db)
    else if db.hasContest contestId && db.hasUser userId then
      .ok (true, { db with registrations := db.registrations ++ [⟨contestId, userId, stamp⟩] })
    else .error (.database .dangling)

/-- Remove a registration, and tell whether it was there. -/
def removeRegistration (db : Database) (contestId userId : Uuid) : Bool × Database :=
  (db.isRegistered contestId userId,
    { db with registrations := db.registrations.filter fun r =>
        !(r.contestId == contestId && r.userId == userId) })

/-- Earlier registrations come first; of two equal ones the smaller user. -/
def registeredEarlier (a b : RegistrationRow) : Bool :=
  decide (a.registeredAt < b.registeredAt ∨
    (a.registeredAt = b.registeredAt ∧ a.userId ≤ b.userId))

/-- The registrations for a contest with the profiles of the registrants, earliest first. -/
def registrationsOf (db : Database) (contestId : Uuid) : List RegistrationEntry :=
  ((db.registrations.filter (·.contestId == contestId)).mergeSort registeredEarlier).filterMap
    fun r => (db.profile? r.userId).map fun profile => ⟨profile, .ofStamp r.registeredAt⟩

/-! ## Problems -/

/-- Add a problem. -/
def insertProblem (db : Database) (p : Problem) : Except Fault Database :=
  if !isStorableProblem p then .error (.database .unstorable)
  else if db.hasProblem p.id then .error (.database .duplicate)
  else if !db.hasContest p.contestId then .error (.database .dangling)
  else .ok { db with problems := db.problems ++ [p] }

/-- A problem with an identifier in a contest. -/
def isProblemOf (contestId id : Uuid) (p : Problem) : Bool :=
  p.id == id && p.contestId == contestId

/-- The problem with an identifier in a contest. -/
def problem? (db : Database) (contestId id : Uuid) : Option Problem :=
  db.problems.find? (isProblemOf contestId id)

/-- Replace the name, score, kind and answer of a problem, and tell whether it is there. -/
def replaceProblem (db : Database) (p : Problem) : Except Fault (Bool × Database) :=
  if !isStorable p.name then .error (.database .unstorable)
  else .ok (db.problems.any (isProblemOf p.contestId p.id),
    { db with problems := db.problems.map fun r =>
        if isProblemOf p.contestId p.id r then { p with contentKey := r.contentKey } else r })

/-- Remove a problem with its submissions, and tell whether it was there. -/
def removeProblem (db : Database) (contestId id : Uuid) : Bool × Database :=
  if db.problems.any (isProblemOf contestId id) then
    let db := db.dropSubmissions (·.problemId == id)
    (true, { db with problems := db.problems.filter fun p => !isProblemOf contestId id p })
  else (false, db)

/-- Problems are listed by name; of two equal names the smaller identifier comes first. -/
def namedEarlier (a b : Problem) : Bool :=
  decide (a.name < b.name ∨ (a.name = b.name ∧ a.id ≤ b.id))

/-- The problems of a contest by name. -/
def overviewsOf (db : Database) (contestId : Uuid) : List ProblemOverview :=
  ((db.problems.filter (·.contestId == contestId)).mergeSort namedEarlier).map Problem.overview

/-! ## Submissions -/

/-- Add a submission. -/
def insertSubmission (db : Database) (s : Submission) : Except Fault Database :=
  match SubmissionRow.ofSubmission? s with
  | none => .error (.database .unstorable)
  | some row =>
    if db.hasSubmission s.id then .error (.database .duplicate)
    else if db.hasUser s.userId && db.hasContest s.contestId && db.hasProblem s.problemId then
      .ok { db with submissions := db.submissions ++ [row] }
    else .error (.database .dangling)

/-- The fault of a row whose state is unknown. -/
def unknownState (row : SubmissionRow) : Fault :=
  .internal (SubmissionState.unknown row.status)

/-- Read a row, which fails if its state is unknown. -/
def readSubmission (row : SubmissionRow) : Except Fault Submission :=
  match row.submission? with
  | some s => .ok s
  | none => .error (unknownState row)

/-- The row of a submission. -/
def submissionRow? (db : Database) (id : Uuid) : Option SubmissionRow :=
  db.submissions.find? (·.id == id)

/-- The submission with an identifier. -/
def submission? (db : Database) (id : Uuid) : Except Fault (Option Submission) :=
  match db.submissionRow? id with
  | none => .ok none
  | some row => (readSubmission row).map some

/-- What is polled for of a submission. -/
def status? (db : Database) (id : Uuid) : Except Fault (Option SubmissionStatus) :=
  match db.submissionRow? id with
  | none => .ok none
  | some row =>
    match row.status? with
    | some status => .ok (some status)
    | none => .error (unknownState row)

/-- Earlier results come first; of two equal ones the smaller identifier. -/
def gradedEarlier (a b : ResultRow) : Bool :=
  decide (a.createdAt < b.createdAt ∨ (a.createdAt = b.createdAt ∧ a.id ≤ b.id))

/-- The results of a submission, earliest first. -/
def resultsOf (db : Database) (submissionId : Uuid) : List TestResult :=
  ((db.results.filter (·.submissionId == submissionId)).mergeSort gradedEarlier).map
    ResultRow.result

/-- Later submissions come first; of two equal ones the greater identifier. -/
def submittedLater (a b : SubmissionRow) : Bool :=
  decide (b.createdAt < a.createdAt ∨ (b.createdAt = a.createdAt ∧ b.id ≤ a.id))

/-- One page of a user's submissions to a problem, latest first. -/
def submissionPage (db : Database) (userId problemId : Uuid) (limit offset : Nat) :
    Except Fault (List Submission) :=
  (page limit offset ((db.submissions.filter fun s =>
    s.userId == userId && s.problemId == problemId).mergeSort submittedLater)).mapM readSubmission

/-! ## Rankings -/

/-- An entry of a user on the leaderboard of a contest. -/
def isEntryOf (contestId userId : Uuid) (r : RankingRow) : Bool :=
  r.contestId == contestId && r.userId == userId

/-- Patch the flags of a leaderboard entry, and tell whether it is there. -/
def patchRanking (db : Database) (contestId userId : Uuid) (patch : LeaderboardPatch) :
    Bool × Database :=
  (db.rankings.any (isEntryOf contestId userId),
    { db with rankings := db.rankings.map fun r =>
        if isEntryOf contestId userId r then { r with flags := r.flags.apply patch } else r })

end Database

end ContestPlatform
