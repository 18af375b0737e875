import ContestPlatform.Proofs.Authority
import ContestPlatform.Proofs.Demands
import ContestPlatform.Proofs.RequestFaults
import ContestPlatform.Proofs.SubmissionRecords

/-!
# The way of a submission

A submission has to meet demands, one after another: who hands it in and what is handed in have to be
known, the contest has to be one that the caller may see, and the submission has to suit the
problem. The first demand that is not met decides the response, and then nothing was changed. If all
of them are met the submission is accepted: it has one row, and its code, if it is code, is kept
under its identifier.
-/

namespace ContestPlatform

/-! ## What is demanded of a submission -/

section Demands

variable {κ : Type}

/-- A submission suits a problem of the contest: it is of its kind, and it has code if it is of
    code. -/
def Submission.demands (s : Stores κ) (new : NewSubmission) : List Demand :=
  let problem? := s.database.problem? new.contestId new.problemId
  [⟨new.kind == .mcq || new.code.isSome, .validation .codeMissing⟩,
   ⟨problem?.isSome, .notFound .problem new.problemId.text⟩,
   ⟨problem?.any (·.kind == new.kind),
    .validation (.kindMismatch (problem?.elim new.kind Problem.kind))⟩]

end Demands

section Performing

variable {κ : Type} [ContentStore κ] (s : Stores κ)

/-- What is done with a submission that suits its problem: its row is written, and then its code. -/
def Submission.record (userId : Uuid) (new : NewSubmission) : Service Submission := do
  let id ← Service.freshId
  let submission := ofNew id userId (← Service.now) new
  Service.database (.insertSubmission submission)
  putCode id new.keptCode submission

/-- The code that a submission has to have is there, or nothing was done. -/
theorem Submission.obtains_requiredCode (new : NewSubmission) :
    s.Obtains [⟨new.kind == .mcq || new.code.isSome, .validation .codeMissing⟩] (requiredCode new)
      fun code => code = new.keptCode := by
  unfold requiredCode NewSubmission.keptCode
  cases new.kind with
  | mcq => exact ⟨none, rfl, rfl⟩
  | code =>
    cases new.code with
    | none => rfl
    | some body => exact ⟨some body, rfl, rfl⟩

/-- A submission that suits its problem is recorded, or nothing was done. -/
theorem Submission.perform_create (userId : Uuid) (new : NewSubmission) :
    match Demand.firstUnmet? (demands s new) with
    | some fault => s.perform (create userId new) = (.error fault, s)
    | none => (∃ problem, s.database.problem? new.contestId new.problemId = some problem) ∧
        s.perform (create userId new) = s.perform (record userId new) := by
  have hdecided : s.Decided (demands s new) (create userId new) fun outcome =>
      (∃ problem, s.database.problem? new.contestId new.problemId = some problem) ∧
        outcome = s.perform (record userId new) := by
    refine .bind_one (obtains_requiredCode s new) fun code hcode => ?_
    refine .read rfl (.bind_one (.found _ _) fun problem hproblem => ?_)
    rw [hproblem, hcode]
    refine .turned_away (by simp) fun _ => .nil ?_
    exact ⟨⟨problem, rfl⟩, rfl⟩
  exact hdecided

end Performing

/-! ## What is recorded -/

/-- The row of a submission that was not graded yet. -/
def Database.SubmissionRow.pending (id userId : Uuid) (createdAt : Stamp) (new : NewSubmission) :
    SubmissionRow where
  id := id
  userId := userId
  contestId := new.contestId
  problemId := new.problemId
  kind := new.kind
  language := new.language
  choices := IntList.braced <| match new.kind with
    | .mcq => new.choices
    | .code => []
  status := "pending"
  createdAt := createdAt
  runtime := none
  memory := none

theorem Database.SubmissionRow.ofSubmission?_ofNew {id userId : Uuid} {now : Instant}
    {createdAt : Stamp} {new : NewSubmission} (hstamp : now.stamp? = some createdAt)
    (hlanguage : new.language.all isStorable = true) :
    ofSubmission? (.ofNew id userId now new) = some (pending id userId createdAt new) := by
  simp only [ofSubmission?, Submission.ofNew, hstamp, hlanguage, guard]
  rfl

namespace Submission

variable {κ : Type} [LawfulContentStore κ]

/-- What the tables and the source of identifiers see to: registered users exist, contests start at
    instants that their columns hold, and nothing is kept yet under the identifier that is drawn
    next. -/
structure Prepared (s : Stores κ) : Prop where
  users : ∀ g ∈ s.database.registrations, s.database.hasUser g.userId = true
  starts : ∀ c ∈ s.database.contests,
    Instant.leastStamp ≤ c.start - Instant.columnEpoch * 1000000
  row : s.database.hasSubmission s.ids.draw.1 = false
  code : s.texts (codeKey s.ids.draw.1) = none

/-- A submission was recorded: it has one row, which is pending, and its code is kept under its
    identifier. Nothing else was changed. -/
structure Recorded (s s' : Stores κ) (userId : Uuid) (new : NewSubmission) : Prop where
  row : ∃ createdAt, s.now.stamp? = some createdAt ∧
    s'.database = { s.database with submissions :=
      s.database.submissions ++ [.pending s.ids.draw.1 userId createdAt new] }
  texts : s'.texts = match new.keptCode with
    | some body => Function.update s.texts (codeKey s.ids.draw.1) (some body)
    | none => s.texts

section Recording

variable {s : Stores κ} {userId : Uuid} {new : NewSubmission}

/-- Nothing stands in the way of the row. -/
theorem insertSubmission_of_known {db : Database} {id : Uuid} {now : Instant} {createdAt : Stamp}
    (hstamp : now.stamp? = some createdAt)
    (hlanguage : new.language.all Database.isStorable = true)
    (hnew : db.hasSubmission id = false) (huser : db.hasUser userId = true)
    (hcontest : db.hasContest new.contestId = true)
    (hproblem : db.hasProblem new.problemId = true) :
    db.answer (.insertSubmission (ofNew id userId now new)) =
      (.ok (), { db with submissions :=
        db.submissions ++ [.pending id userId createdAt new] }) := by
  have hrow : Database.SubmissionRow.ofSubmission? (ofNew id userId now new) =
      some (.pending id userId createdAt new) :=
    Database.SubmissionRow.ofSubmission?_ofNew hstamp hlanguage
  have hnew' : db.hasSubmission (ofNew id userId now new).id = false := hnew
  have hknown : (db.hasUser (ofNew id userId now new).userId &&
      db.hasContest (ofNew id userId now new).contestId &&
      db.hasProblem (ofNew id userId now new).problemId) = true := by
    simp [ofNew, huser, hcontest, hproblem]
  simp [Database.answer, Database.insertSubmission, hrow, hnew', hknown, Database.changed]

/-- Code is written where nothing is kept. -/
theorem perform_putCode {id : Uuid} (hfree : s.texts (codeKey id) = none) (code : Option String)
    (submission : Submission) :
    ∃ s', s.perform (putCode id code submission) = (.ok submission, s') ∧
      s'.database = s.database ∧ s'.texts = match code with
        | some body => Function.update s.texts (codeKey id) (some body)
        | none => s.texts := by
  cases code with
  | none => exact ⟨s, rfl, rfl, rfl⟩
  | some body =>
    have hput : Content.Map.answer s.texts (.put (codeKey id) body .createOnly) =
        (.ok (), Function.update s.texts (codeKey id) (some body)) :=
      Content.Map.answer_put_of_free (isKey_codeKey id) (by simp [hfree])
    have hanswer := LawfulContentStore.answer_eq s.content (.put (codeKey id) body .createOnly)
    have htexts := LawfulContentStore.texts_answer s.content (.put (codeKey id) body .createOnly)
    rw [hput] at hanswer htexts
    refine ⟨{ s with content :=
      (ContentStore.answer s.content (.put (codeKey id) body .createOnly)).2 }, ?_, rfl, htexts⟩
    have hcontent :
        s.perform (Service.content (.put (codeKey id) body .createOnly)) = (.ok (), _) :=
      (s.perform_content _).trans (by rw [hanswer]; rfl)
    unfold putCode
    exact Stores.perform_bind_of_ok hcontent

/-- A submission to a contest that the user may see is recorded. -/
theorem perform_record (hprepared : Prepared s) {contest : Contest} {problem : Problem}
    (hcontest : s.database.contest? new.contestId = some contest)
    (hstarted : contest.start ≤ s.now)
    (hregistered : s.database.isRegistered new.contestId userId = true)
    (hproblem : s.database.problem? new.contestId new.problemId = some problem)
    (hlanguage : new.language.all Database.isStorable = true) :
    ∃ s', s.perform (record userId new) = (.ok (ofNew s.ids.draw.1 userId s.now new), s') ∧
      Recorded s s' userId new := by
  -- The contest has started, so the present instant can be kept.
  obtain ⟨row, hrow, rfl⟩ := Option.map_eq_some_iff.mp hcontest
  obtain ⟨createdAt, hstamp⟩ := Instant.exists_stamp hstarted
    (hprepared.starts row (List.mem_of_find?_eq_some hrow))
  have huser : s.database.hasUser userId = true := by
    obtain ⟨g, hg, hboth⟩ := List.any_eq_true.mp hregistered
    obtain rfl := beq_iff_eq.mp (Bool.and_eq_true_iff.mp hboth).2
    exact hprepared.users g hg
  have hinsert := insertSubmission_of_known hstamp hlanguage hprepared.row huser
    (Database.hasContest_of_contest? hcontest) (Database.hasProblem_of_problem? hproblem)
  have hdrawn : s.perform Service.freshId =
      (.ok s.ids.draw.1, { s with ids := s.ids.draw.2 }) := rfl
  unfold record
  rw [Stores.perform_bind_of_ok hdrawn, Stores.perform_bind_of_ok (Stores.perform_now _),
    Stores.perform_bind, Stores.perform_database, hinsert]
  obtain ⟨s', hperform, hdatabase, htexts⟩ := perform_putCode (s := { s with
    ids := s.ids.draw.2
    database := { s.database with submissions :=
      s.database.submissions ++ [.pending s.ids.draw.1 userId createdAt new] } })
    hprepared.code new.keptCode (ofNew s.ids.draw.1 userId s.now new)
  exact ⟨s', hperform, ⟨createdAt, hstamp, hdatabase⟩, htexts⟩

end Recording

end Submission

/-! ## Requests that hand in a submission -/

namespace Http

/-- A request says who hands in what, in a body that satisfies its rules. -/
structure HandsIn (r : Request) (userId : Uuid) (new : NewSubmission) : Prop where
  caller : caller? r = some userId
  json : (r.visibleHeader? "content-type").any MediaType.isJson = true
  short : r.body.utf8ByteSize ≤ longestBody
  read : Input.submission.read.ofText r.body = .ok new
  check : Input.submission.check new = .ok ()

/-- A request hands in nothing, because of the first thing that is wrong with it: nobody hands it in,
    or the body is not said to be JSON, too long, not a submission, or against its rules. -/
inductive HandsInNothing (r : Request) : Failure → Prop where
  | unidentified (h : caller? r = none) : HandsInNothing r (.fault .unauthorized)
  | notJson {userId : Uuid} (hcaller : caller? r = some userId)
      (h : (r.visibleHeader? "content-type").any MediaType.isJson = false) :
      HandsInNothing r (.rejection .mediaType)
  | tooLong {userId : Uuid} (hcaller : caller? r = some userId)
      (hjson : (r.visibleHeader? "content-type").any MediaType.isJson = true)
      (h : longestBody < r.body.utf8ByteSize) : HandsInNothing r (.rejection .tooLong)
  | unread {userId : Uuid} {refusal : Json.Refusal} (hcaller : caller? r = some userId)
      (hjson : (r.visibleHeader? "content-type").any MediaType.isJson = true)
      (hshort : r.body.utf8ByteSize ≤ longestBody)
      (h : Input.submission.read.ofText r.body = .error refusal) :
      HandsInNothing r (.rejection (.ofRefusal refusal))
  | unchecked {userId : Uuid} {new : NewSubmission} {fault : Fault}
      (hcaller : caller? r = some userId)
      (hjson : (r.visibleHeader? "content-type").any MediaType.isJson = true)
      (hshort : r.body.utf8ByteSize ≤ longestBody)
      (hread : Input.submission.read.ofText r.body = .ok new)
      (h : Input.submission.check new = .error fault) : HandsInNothing r (.fault fault)

/-- A request hands in a submission, or there is a first thing that is wrong with it. -/
theorem handsIn_or_nothing (r : Request) :
    (∃ failure, HandsInNothing r failure) ∨ ∃ userId new, HandsIn r userId new := by
  cases hcaller : caller? r with
  | none => exact .inl ⟨_, .unidentified hcaller⟩
  | some userId =>
    cases hjson : (r.visibleHeader? "content-type").any MediaType.isJson with
    | false => exact .inl ⟨_, .notJson hcaller hjson⟩
    | true =>
      by_cases hshort : r.body.utf8ByteSize ≤ longestBody
      · cases hread : Input.submission.read.ofText r.body with
        | error refusal => exact .inl ⟨_, .unread hcaller hjson hshort hread⟩
        | ok new =>
          cases hcheck : Input.submission.check new with
          | error fault => exact .inl ⟨_, .unchecked hcaller hjson hshort hread hcheck⟩
          | ok => exact .inr ⟨userId, new, hcaller, hjson, hshort, hread, hcheck⟩
      · exact .inl ⟨_, .tooLong hcaller hjson (Nat.lt_of_not_le hshort)⟩

section Serving

variable {κ : Type} [ContentStore κ] {r : Request}

/-- A request that hands in nothing fails for what is wrong with it. -/
theorem run_handle_of_nothing {failure : Failure} (h : HandsInNothing r failure) (s : Stores κ) :
    s.run (handle r .createSubmission).run = (.error failure, s) := by
  have hbody : ∀ {userId : Uuid} {rejection : Rejection}, caller? r = some userId →
      body r Input.submission = throw (.rejection rejection) →
      s.run (handle r .createSubmission).run = (.error (.rejection rejection), s) := by
    intro userId rejection hcaller hbody
    unfold handle
    rw [caller_of_some hcaller, pure_bind, hbody]
    rfl
  cases h with
  | unidentified h =>
    unfold handle
    rw [caller_of_none h]
    rfl
  | notJson hcaller h =>
    refine hbody hcaller ?_
    unfold body
    simp only [h]
    rfl
  | tooLong hcaller hjson h =>
    refine hbody hcaller ?_
    unfold body
    simp only [hjson, h]
    rfl
  | unread hcaller hjson hshort h =>
    refine hbody hcaller ?_
    unfold body
    simp only [hjson, Nat.not_lt.mpr hshort, h]
    rfl
  | unchecked hcaller hjson hshort hread h =>
    unfold handle check
    rw [caller_of_some hcaller, pure_bind, body_of_read hjson hshort hread, pure_bind, h]
    rfl

/-- What is done with a submission that was handed in. -/
def takeIn (userId : Uuid) (new : NewSubmission) : Handler Response := do
  let _ ← run (Contest.checkVisibility new.contestId userId)
  let submission ← run (Submission.create userId new)
  return .json 202 (.object [("id", Json.uuid submission.id), ("status", submission.state.toJson)])

theorem handle_of_handsIn {userId : Uuid} {new : NewSubmission} (h : HandsIn r userId new) :
    handle r .createSubmission = takeIn userId new := by
  have hcheck : check Input.submission new = pure () := by
    unfold check
    rw [h.check]
  unfold handle
  rw [caller_of_some h.caller, pure_bind, body_of_read h.json h.short h.read, pure_bind, hcheck,
    pure_bind]
  rfl

end Serving

section Pipeline

variable {κ : Type} [LawfulContentStore κ] {s : Stores κ} {r : Request}

open Submission (Prepared Recorded)

/-- What is demanded of a submission, in the order in which it counts. -/
def demands (s : Stores κ) (userId : Uuid) (new : NewSubmission) : List Demand :=
  Contest.gate s new.contestId userId ++ Submission.demands s new

/-- The response to a submission that was accepted. -/
def accepted (r : Request) (id : Uuid) : Response :=
  withoutBody r (compress r (.json 202
    (.object [("id", Json.uuid id), ("status", SubmissionState.pending.toJson)])))

/-- A submission is taken in if all demands on it are met. -/
theorem run_takeIn (hprepared : Prepared s) (userId : Uuid) {new : NewSubmission}
    (hlanguage : new.language.all Database.isStorable = true) :
    match Demand.firstUnmet? (demands s userId new) with
    | some fault => s.run (takeIn userId new).run = (.error (.fault fault), s)
    | none => ∃ s', Recorded s s' userId new ∧
        s.run (takeIn userId new).run = (.ok (.json 202 (.object
          [("id", Json.uuid s.ids.draw.1), ("status", SubmissionState.pending.toJson)])), s') := by
  have hgate := Contest.perform_checkVisibility_gate s new.contestId userId
  have hcreate := Submission.perform_create s userId new
  rw [demands, Demand.firstUnmet?_append]
  unfold takeIn
  cases hfirst : Demand.firstUnmet? (Contest.gate s new.contestId userId) with
  | some fault =>
    rw [hfirst] at hgate
    rw [Option.some_or, Stores.run_bind, run_run, hgate]
    rfl
  | none =>
    rw [hfirst] at hgate
    obtain ⟨contest, hcontest, hstarted, hregistered, hvisible⟩ := hgate
    rw [Option.none_or, Stores.run_bind, run_run, hvisible]
    dsimp only [Except.mapError]
    rw [Stores.run_bind, run_run]
    cases hsecond : Demand.firstUnmet? (Submission.demands s new) with
    | some fault =>
      rw [hsecond] at hcreate
      rw [hcreate]
      rfl
    | none =>
      rw [hsecond] at hcreate
      obtain ⟨⟨problem, hproblem⟩, hrecord⟩ := hcreate
      obtain ⟨s', hperform, hrecorded⟩ := Submission.perform_record hprepared hcontest hstarted
        hregistered hproblem hlanguage
      rw [hrecord, hperform]
      exact ⟨s', hrecorded, rfl⟩

theorem status_ne_accepted (failure : Failure) : failure.response.status ≠ 202 := by
  cases failure with
  | rejection rejection => cases rejection <;> decide
  | fault fault =>
    change fault.kind.status ≠ 202
    cases fault.kind <;> decide

/-- A request that is to hand in a submission is refused for the first thing that is wrong with it,
    or for the first demand that the submission does not meet, and then nothing was changed. It is
    accepted exactly if there is nothing of the kind, and then the submission was recorded. -/
theorem submission_accepted_or_refused (hmatch : Matches r .createSubmission)
    (hprepared : Prepared s) :
    (∀ failure, HandsInNothing r failure →
      s.run (serve r) = (withoutBody r (compress r failure.response), s)) ∧
    (∀ userId new, HandsIn r userId new →
      match Demand.firstUnmet? (demands s userId new) with
      | some fault => s.run (serve r) = (answered r fault, s)
      | none => (s.run (serve r)).1 = accepted r s.ids.draw.1 ∧
          Recorded s (s.run (serve r)).2 userId new) ∧
    ((∃ failure, HandsInNothing r failure) ∨ ∃ userId new, HandsIn r userId new) ∧
    ((s.run (serve r)).1.status = 202 ↔ ∃ userId new, HandsIn r userId new ∧
      ∀ demand ∈ demands s userId new, demand.met = true) := by
  have hserve := run_serve_of_matches hmatch s
  rw [guarded_of_open rfl] at hserve
  have hnothing : ∀ failure, HandsInNothing r failure →
      s.run (serve r) = (withoutBody r (compress r failure.response), s) := by
    intro failure h
    rw [hserve, run_handle_of_nothing h]
  have hsomething : ∀ userId new, HandsIn r userId new →
      match Demand.firstUnmet? (demands s userId new) with
      | some fault => s.run (serve r) = (answered r fault, s)
      | none => (s.run (serve r)).1 = accepted r s.ids.draw.1 ∧
          Recorded s (s.run (serve r)).2 userId new := by
    intro userId new h
    have htaken := run_takeIn hprepared userId (language_storable h.check)
    rw [hserve, handle_of_handsIn h]
    cases hfirst : Demand.firstUnmet? (demands s userId new) with
    | some fault =>
      rw [hfirst] at htaken
      rw [htaken]
      rfl
    | none =>
      rw [hfirst] at htaken
      obtain ⟨s', hrecorded, hrun⟩ := htaken
      rw [hrun]
      exact ⟨rfl, hrecorded⟩
  refine ⟨hnothing, hsomething, handsIn_or_nothing r, fun hstatus => ?_, ?_⟩
  · rcases handsIn_or_nothing r with ⟨failure, h⟩ | ⟨userId, new, h⟩
    · rw [hnothing failure h, status_withoutBody] at hstatus
      exact absurd hstatus (status_ne_accepted failure)
    · refine ⟨userId, new, h, Demand.firstUnmet?_eq_none.mp ?_⟩
      have hend := hsomething userId new h
      cases hfirst : Demand.firstUnmet? (demands s userId new) with
      | none => rfl
      | some fault =>
        rw [hfirst] at hend
        rw [hend, answered, status_withoutBody] at hstatus
        exact absurd hstatus (status_ne_accepted (.fault fault))
  · rintro ⟨userId, new, h, hmet⟩
    have hend := hsomething userId new h
    rw [Demand.firstUnmet?_eq_none.mpr hmet] at hend
    rw [hend.1, accepted, status_withoutBody]
    rfl

end Pipeline

/-! ### Code for a problem -/

/-- The user of the stores with a problem is registered for its contest. -/
def registeredStores : Stores Content.Memory :=
  { Submission.codeStores with database :=
      { Submission.codeStores.database with registrations := [⟨.ofNat 1, .ofNat 7, 0⟩] } }

theorem registeredStores_prepared : Submission.Prepared registeredStores where
  users := by decide +kernel
  starts := by decide +kernel
  row := by decide +kernel
  code := rfl

/-- The user hands in code for the problem. -/
def codeRequest : Request where
  method := "POST"
  address := ⟨"/api/v1/submissions", none⟩
  headers := [("x-user-id", (Uuid.ofNat 7).text), ("content-type", "application/json")]
  body := Submission.echoCode.toJson.print

theorem codeRequest_handsIn : HandsIn codeRequest (.ofNat 7) Submission.echoCode where
  caller := by decide +kernel
  json := by decide +kernel
  short := by decide +kernel
  read := by decide +kernel
  check := rfl

/-- The code is accepted, and recorded under the identifier that is drawn. -/
theorem code_accepted :
    (registeredStores.run (serve codeRequest)).1 = accepted codeRequest (IdSource.numbered 1) ∧
      Submission.Recorded registeredStores (registeredStores.run (serve codeRequest)).2
        (.ofNat 7) Submission.echoCode := by
  have hmatch : Matches codeRequest .createSubmission :=
    ⟨.submissions, by decide +kernel, by decide +kernel⟩
  have hmet : Demand.firstUnmet? (demands registeredStores (.ofNat 7) Submission.echoCode) =
      none := by decide +kernel
  obtain ⟨-, hserved, -⟩ := submission_accepted_or_refused hmatch registeredStores_prepared
  have hend := hserved _ _ codeRequest_handsIn
  rw [hmet] at hend
  exact hend

end Http

end ContestPlatform
