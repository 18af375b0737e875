import ContestPlatform.Database.Basic
import ContestPlatform.Json.Writer

/-!
# Rows as JSON

Raw rows, column by column: how they are added from outside and how they are listed. A row that is
added may leave out columns that have a default; it is refused if a value does not fit its column or
breaks a constraint. Timestamps are listed as microseconds since 1970.
-/

namespace ContestPlatform.Database

/-! ## Columns -/

/-- A reader of the values of a column. -/
abbrev Column (α : Type) : Type :=
  Json → Option α

namespace Column

/-- An identifier. -/
def uuid : Column Uuid
  | .text s => Uuid.ofText? s
  | _ => none

/-- A text. -/
def text : Column String
  | .text s => if isStorable s then some s else none
  | _ => none

/-- A truth value. -/
def bool : Column Bool
  | .bool b => some b
  | _ => none

/-- A 32-bit integer. -/
def int32 : Column Int32
  | .number n => n.int?.bind Text.Decimal.toInt32?
  | _ => none

/-- A 64-bit integer. -/
def int64 : Column Int64
  | .number n => n.int?.bind Text.Decimal.toInt64?
  | _ => none

/-- A list of 32-bit integers. -/
def int32List : Column (List Int32)
  | .list items => items.mapM int32
  | _ => none

/-- A timestamp, as microseconds since 1970 or as text. -/
def stamp : Column Stamp
  | .number n => n.int?
  | .text s => (Instant.ofText? s).bind Instant.stamp?
  | _ => none

/-- A kind of problem. -/
def kind : Column ProblemKind
  | .text s => ProblemKind.table.lookup s
  | _ => none

/-- A column that may be null. -/
def nullable {α : Type} (read : Column α) : Column (Option α)
  | .null => some none
  | j => (read j).map some

end Column

/-- The value of a column that a row has to give. -/
def given {α : Type} (row : Json) (name : String) (read : Column α) : Option α :=
  (row.get? name).bind read

/-- The value of a column that a row may leave out. -/
def givenOr {α : Type} (row : Json) (name : String) (read : Column α) (default : α) : Option α :=
  match row.get? name with
  | some j => read j
  | none => some default

/-! ## Tables -/

/-- The tables by their names. -/
inductive Table where
  | users
  | admins
  | contests
  | registrations
  | problems
  | submissions
  | results
  | rankings
deriving DecidableEq, Inhabited

/-- The tables and their names. -/
def Table.table : List (String × Table) :=
  [("users", .users), ("admin", .admins), ("contests", .contests),
   ("contest_registrations", .registrations), ("problems", .problems),
   ("submissions", .submissions), ("test_case_results", .results), ("rankings", .rankings)]

/-- The columns of a table. -/
def Table.columns : Table → List String
  | .users => ["id", "name", "email", "usn", "department", "current_year"]
  | .admins => ["user_id"]
  | .contests => ["id", "name", "description", "registration_start_time",
      "registration_end_time", "start_time", "end_time", "eligible_to"]
  | .registrations => ["contest_id", "user_id", "registered_at"]
  | .problems => ["id", "contest_id", "name", "description", "score", "type",
      "has_multiple_answers", "answer"]
  | .submissions => ["id", "user_id", "contest_id", "problem_id", "type", "language", "choices",
      "status", "created_at", "runtime", "memory"]
  | .results => ["id", "submission_id", "test_case_id", "status", "runtime", "memory",
      "created_at"]
  | .rankings => ["contest_id", "user_id", "score", "hidden", "disqualified"]

/-- A row that names columns of a table only. -/
def Table.fits (t : Table) : Json → Bool
  | .object members => members.all fun m => t.columns.contains m.1
  | _ => false

/-! ## Adding rows -/

/-- Add a user. -/
def addUser (db : Database) (row : Json) : Option Database := do
  let user : UserProfile := {
    id := ← given row "id" Column.uuid
    name := ← given row "name" Column.text
    email := ← given row "email" Column.text
    usn := ← given row "usn" Column.text
    department := ← given row "department" Column.text
    currentYear := ← given row "current_year" Column.int32 }
  guard (!db.hasUser user.id && !db.users.any (·.email == user.email))
  return { db with users := db.users ++ [user] }

/-- Add an administrator. -/
def addAdmin (db : Database) (row : Json) : Option Database := do
  let userId ← given row "user_id" Column.uuid
  guard (!db.isAdmin userId && db.hasUser userId)
  return { db with admins := db.admins ++ [userId] }

/-- Add a contest. -/
def addContest (db : Database) (row : Json) : Option Database := do
  let contest : ContestRow := {
    id := ← given row "id" Column.uuid
    name := ← given row "name" Column.text
    description := ← givenOr row "description" Column.text ""
    registrationStart := ← given row "registration_start_time" Column.stamp
    registrationEnd := ← given row "registration_end_time" Column.stamp
    start := ← given row "start_time" Column.stamp
    finish := ← given row "end_time" Column.stamp
    eligible := ← givenOr row "eligible_to" Column.text "" }
  guard !(db.hasContest contest.id)
  return { db with contests := db.contests ++ [contest] }

/-- Add a registration. -/
def addRegistration (now : Stamp) (db : Database) (row : Json) : Option Database := do
  let registration : RegistrationRow := {
    contestId := ← given row "contest_id" Column.uuid
    userId := ← given row "user_id" Column.uuid
    registeredAt := ← givenOr row "registered_at" Column.stamp now }
  guard !(db.isRegistered registration.contestId registration.userId)
  guard (db.hasContest registration.contestId && db.hasUser registration.userId)
  return { db with registrations := db.registrations ++ [registration] }

/-- Add a problem. -/
def addProblem (db : Database) (row : Json) : Option Database := do
  let problem : Problem := {
    id := ← given row "id" Column.uuid
    contestId := ← given row "contest_id" Column.uuid
    name := ← given row "name" Column.text
    contentKey := ← given row "description" Column.text
    score := ← givenOr row "score" Column.int32 0
    kind := ← given row "type" Column.kind
    hasMultipleAnswers := ← givenOr row "has_multiple_answers" Column.bool false
    answer := ← givenOr row "answer" Column.int32List [] }
  (db.insertProblem problem).toOption

/-- Add a submission. -/
def addSubmission (now : Stamp) (db : Database) (row : Json) : Option Database := do
  let submission : SubmissionRow := {
    id := ← given row "id" Column.uuid
    userId := ← given row "user_id" Column.uuid
    contestId := ← given row "contest_id" Column.uuid
    problemId := ← given row "problem_id" Column.uuid
    kind := ← given row "type" Column.kind
    language := ← givenOr row "language" (Column.nullable Column.text) none
    choices := ← givenOr row "choices" Column.text "\x7b\x7d"
    status := ← givenOr row "status" Column.text "pending"
    createdAt := ← givenOr row "created_at" Column.stamp now
    runtime := ← givenOr row "runtime" (Column.nullable Column.int64) none
    memory := ← givenOr row "memory" (Column.nullable Column.int64) none }
  guard !(db.hasSubmission submission.id)
  guard (db.hasUser submission.userId && db.hasContest submission.contestId &&
    db.hasProblem submission.problemId)
  return { db with submissions := db.submissions ++ [submission] }

/-- Add the result of a test case. -/
def addResult (now : Stamp) (db : Database) (row : Json) : Option Database := do
  let result : ResultRow := {
    id := ← given row "id" Column.uuid
    submissionId := ← given row "submission_id" Column.uuid
    testCaseId := ← given row "test_case_id" Column.uuid
    status := ← given row "status" Column.text
    runtime := ← givenOr row "runtime" (Column.nullable Column.int64) none
    memory := ← givenOr row "memory" (Column.nullable Column.int64) none
    createdAt := ← givenOr row "created_at" Column.stamp now }
  guard !(db.results.any (·.id == result.id))
  guard (db.hasSubmission result.submissionId)
  return { db with results := db.results ++ [result] }

/-- Add an entry of a leaderboard. -/
def addRanking (db : Database) (row : Json) : Option Database := do
  let ranking : RankingRow := {
    contestId := ← given row "contest_id" Column.uuid
    userId := ← given row "user_id" Column.uuid
    score := ← givenOr row "score" Column.int32 0
    flags := {
      hidden := ← givenOr row "hidden" Column.bool false
      disqualified := ← givenOr row "disqualified" Column.bool false } }
  guard !(db.rankings.any (isEntryOf ranking.contestId ranking.userId))
  guard (db.hasContest ranking.contestId && db.hasUser ranking.userId)
  return { db with rankings := db.rankings ++ [ranking] }

/-- Add a row to a table at an instant, if the row fits and breaks no constraint. -/
def addRow (now : Stamp) (db : Database) (table : Table) (row : Json) : Option Database := do
  guard (table.fits row)
  match table with
  | .users => db.addUser row
  | .admins => db.addAdmin row
  | .contests => db.addContest row
  | .registrations => db.addRegistration now row
  | .problems => db.addProblem row
  | .submissions => db.addSubmission now row
  | .results => db.addResult now row
  | .rankings => db.addRanking row

/-- Add rows one after another up to the first that is refused, and tell whether all were added. -/
def addRows (now : Stamp) (table : Table) : Database → List Json → Bool × Database
  | db, [] => (true, db)
  | db, row :: rest =>
    match db.addRow now table row with
    | some db => addRows now table db rest
    | none => (false, db)

/-! ## Listing rows -/

/-- The JSON form of a user. -/
def userToJson (u : UserProfile) : Json :=
  .object
    [("id", Json.uuid u.id),
     ("name", .text u.name),
     ("email", .text u.email),
     ("usn", .text u.usn),
     ("department", .text u.department),
     ("current_year", Json.int32 u.currentYear)]

/-- The JSON form of a row of the table of contests. -/
def ContestRow.toJson (r : ContestRow) : Json :=
  .object
    [("id", Json.uuid r.id),
     ("name", .text r.name),
     ("description", .text r.description),
     ("registration_start_time", Json.int r.registrationStart),
     ("registration_end_time", Json.int r.registrationEnd),
     ("start_time", Json.int r.start),
     ("end_time", Json.int r.finish),
     ("eligible_to", .text r.eligible)]

/-- The JSON form of a row of the table of registrations. -/
def RegistrationRow.toJson (r : RegistrationRow) : Json :=
  .object
    [("contest_id", Json.uuid r.contestId),
     ("user_id", Json.uuid r.userId),
     ("registered_at", Json.int r.registeredAt)]

/-- The JSON form of a row of the table of problems. -/
def problemToJson (p : Problem) : Json :=
  .object
    [("id", Json.uuid p.id),
     ("contest_id", Json.uuid p.contestId),
     ("name", .text p.name),
     ("description", .text p.contentKey),
     ("score", Json.int32 p.score),
     ("type", .text p.kind.name),
     ("has_multiple_answers", .bool p.hasMultipleAnswers),
     ("answer", Json.int32List p.answer)]

/-- The JSON form of a row of the table of submissions. -/
def SubmissionRow.toJson (r : SubmissionRow) : Json :=
  .object
    [("id", Json.uuid r.id),
     ("user_id", Json.uuid r.userId),
     ("contest_id", Json.uuid r.contestId),
     ("problem_id", Json.uuid r.problemId),
     ("type", .text r.kind.name),
     ("language", Json.orNull .text r.language),
     ("choices", .text r.choices),
     ("status", .text r.status),
     ("created_at", Json.int r.createdAt),
     ("runtime", Json.orNull Json.int64 r.runtime),
     ("memory", Json.orNull Json.int64 r.memory)]

/-- The JSON form of a row of the table of results. -/
def ResultRow.toJson (r : ResultRow) : Json :=
  .object
    [("id", Json.uuid r.id),
     ("submission_id", Json.uuid r.submissionId),
     ("test_case_id", Json.uuid r.testCaseId),
     ("status", .text r.status),
     ("runtime", Json.orNull Json.int64 r.runtime),
     ("memory", Json.orNull Json.int64 r.memory),
     ("created_at", Json.int r.createdAt)]

/-- The JSON form of a row of the table of rankings. -/
def RankingRow.toJson (r : RankingRow) : Json :=
  .object
    [("contest_id", Json.uuid r.contestId),
     ("user_id", Json.uuid r.userId),
     ("score", Json.int32 r.score),
     ("hidden", .bool r.flags.hidden),
     ("disqualified", .bool r.flags.disqualified)]

/-- Rows in the order of a pair of identifiers. -/
def inKeyOrder {α : Type} (key : α → Uuid × Uuid) (rows : List α) : List α :=
  rows.mergeSort fun a b =>
    decide ((key a).1 < (key b).1 ∨ ((key a).1 = (key b).1 ∧ (key a).2 ≤ (key b).2))

/-- The rows of a table in the order of their primary keys. -/
def listRows (db : Database) : Table → List Json
  | .users => (inKeyOrder (fun u => (u.id, u.id)) db.users).map userToJson
  | .admins => (inKeyOrder (fun id => (id, id)) db.admins).map
      fun id => .object [("user_id", Json.uuid id)]
  | .contests => (inKeyOrder (fun c => (c.id, c.id)) db.contests).map ContestRow.toJson
  | .registrations =>
    (inKeyOrder (fun r => (r.contestId, r.userId)) db.registrations).map RegistrationRow.toJson
  | .problems => (inKeyOrder (fun p => (p.id, p.id)) db.problems).map problemToJson
  | .submissions => (inKeyOrder (fun s => (s.id, s.id)) db.submissions).map SubmissionRow.toJson
  | .results => (inKeyOrder (fun r => (r.id, r.id)) db.results).map ResultRow.toJson
  | .rankings =>
    (inKeyOrder (fun r => (r.contestId, r.userId)) db.rankings).map RankingRow.toJson

end ContestPlatform.Database
