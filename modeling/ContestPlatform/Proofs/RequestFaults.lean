import ContestPlatform.Proofs.AnswerSecrecy
import ContestPlatform.Proofs.OperationFaults
import ContestPlatform.Proofs.Serving

/-!
# Failures of the stores

A request ends with status 500 if the stores fail. Lawful stores do not fail on their own, and
stores that are reached by requests lack nothing, so what is left is a request that hands in what
the tables cannot keep: a text with a NUL, or an instant before the first timestamp. The checks of
requests look for neither. `kept_request_succeeds` says that there is no other reason, and
`unkept_terms_fail` that terms of a contest are one.
-/

namespace ContestPlatform.Http

variable {κ : Type} [LawfulContentStore κ] {p : Prop} {A : Assertion κ}

/-! ## What the checks let through -/

section Checks

open Input

theorem rules_of_complain {α : Type} {field : String} {write : α → Json} {rules : α → List Rule}
    {a : α} (h : complain field write rules a = []) : rules a = [] := by
  unfold complain at h
  split at h
  case h_1 hrules => exact hrules
  case h_2 => exact nomatch h

theorem isStorable_of_checkLanguage {name : String} (h : checkLanguage name = []) :
    Database.isStorable name = true := by
  unfold checkLanguage at h
  split at h
  case isTrue hname =>
    have hchars := List.all_eq_true.mp (Bool.and_eq_true_iff.mp hname).2
    rw [Database.isStorable, Bool.not_eq_true', List.contains_eq_mem, decide_eq_false_iff_not]
    -- No character of the name of a language is a NUL.
    exact fun hnul => absurd (hchars _ hnul) (by decide)
  case isFalse => cases h

/-- The name of a language that passes the checks can be kept. -/
theorem language_storable {new : NewSubmission} (h : Input.submission.check new = .ok ()) :
    new.language.all Database.isStorable = true := by
  have hnone : new.complaints = [] := by
    unfold Form.check at h
    split at h
    case h_1 hcomplaints => exact hcomplaints
    case h_2 => exact nomatch h
  cases hlanguage : new.language with
  | none => rfl
  | some name =>
    simp only [NewSubmission.complaints, hlanguage, complainOption, List.append_eq_nil_iff]
      at hnone
    have hrules := rules_of_complain hnone.1.1
    exact isStorable_of_checkLanguage (List.append_eq_nil_iff.mp hrules).2

end Checks

/-! ## Arguments -/

/-- A failure that leaves the stores intact, and that is none of the stores if `p` holds. -/
def Failure.Harmless (p : Prop) (failure : Failure) : Assertion κ := fun s =>
  s.Intact none ∧ (p → failure.response.status ≠ 500)

/-- What a handler does that runs from stores of which `A` holds: it leaves them intact, and it
    responds or fails without a failure of the stores. -/
abbrev Answers (p : Prop) (A : Assertion κ) (x : Handler Response) : Prop :=
  Triple A x (fun response s => s.Intact none ∧ response.status ≠ 500) (Failure.Harmless p)

theorem Rejection.status_ne (r : Rejection) : r.response.status ≠ 500 := by
  cases r <;> decide

/-- A fault has the status of a failure of the stores only if it is one. -/
theorem status_ne_of_kind {fault : Fault} (h : fault.kind ≠ .infrastructure) :
    (Failure.fault fault).response.status ≠ 500 := by
  change fault.kind.status ≠ 500
  cases hkind : fault.kind with
  | infrastructure => exact absurd hkind h
  | _ => decide

section Arguments

variable (hA : ∀ s, A s → s.Intact none) {α : Type} {Q : α → Assertion κ}

include hA

theorem triple_reject {r : Rejection} :
    Triple A (reject r : Handler α) Q (Failure.Harmless p) :=
  Triple.throw fun s h => ⟨hA s h, fun _ => r.status_ne⟩

theorem triple_refuse {fault : Fault} (hkind : (fault.kind == .infrastructure) = false) :
    Triple A (throw (.fault fault) : Handler α) Q (Failure.Harmless p) :=
  Triple.throw fun s h => ⟨hA s h, fun _ => status_ne_of_kind (beq_eq_false_iff_ne.mp hkind)⟩

theorem triple_caller {r : Request} :
    Triple A (caller r) (fun _ => A) (Failure.Harmless p) := by
  unfold caller
  cases caller? r with
  | none => exact triple_refuse hA rfl
  | some userId => exact Triple.pure fun _ h => h

theorem triple_identifier {segment : String} :
    Triple A (identifier segment) (fun _ => A) (Failure.Harmless p) := by
  unfold identifier
  cases (Text.Percent.decodeText? segment).bind Uuid.ofText? with
  | none => exact triple_reject hA
  | some id => exact Triple.pure fun _ h => h

theorem triple_query {r : Request} {read : String → Option α} :
    Triple A (query r read) (fun _ => A) (Failure.Harmless p) := by
  unfold query
  cases read (r.address.query.getD "") with
  | none => exact triple_reject hA
  | some q => exact Triple.pure fun _ h => h

/-- What is read of a body is read of its text. -/
theorem triple_body {r : Request} {form : Input.Form α} :
    Triple A (body r form) (fun a s => form.read.ofText r.body = .ok a ∧ A s)
      (Failure.Harmless p) := by
  unfold body
  cases (r.visibleHeader? "content-type").any MediaType.isJson with
  | false => exact triple_reject hA
  | true =>
    by_cases hlong : longestBody < r.body.utf8ByteSize
    · simp only [hlong]
      exact triple_reject hA
    · simp only [hlong]
      cases form.read.ofText r.body with
      | error refusal => exact triple_reject hA
      | ok a => exact Triple.pure fun _ h => ⟨rfl, h⟩

theorem triple_check {form : Input.Form α} {a : α} :
    Triple A (check form a) (fun _ s => form.check a = .ok () ∧ A s) (Failure.Harmless p) := by
  unfold check Input.Form.check
  cases form.complaints a with
  | nil => exact Triple.pure fun _ h => ⟨rfl, h⟩
  | cons complaint rest => exact triple_refuse hA rfl

end Arguments

/-! ## Endpoints -/

section Endpoints

variable {α : Type} {Q : α → Assertion κ}

theorem triple_run {operation : Service α} (h : Triple A operation Q (Fault.Harmless p)) :
    Triple A (run operation) Q (Failure.Harmless p) :=
  Triple.adapt (h.failure fun _ _ h => ⟨h.1, fun hp => status_ne_of_kind (h.2 hp)⟩)

/-- What an operation gives is responded. -/
theorem answers_respond {operation : Service α} {respond : α → Response}
    (h : Spares p A operation) (hstatus : ∀ a, (respond a).status ≠ 500) :
    Answers p A (do return respond (← run operation)) :=
  Triple.bind (triple_run h) fun a => Triple.pure fun _ h => ⟨h, hstatus a⟩

/-- A submission is shown to its owner only. -/
theorem answers_shown {operation : Service α} {owner : α → Uuid} {userId id : Uuid}
    {respond : α → Response} (h : Spares p A operation)
    (hstatus : ∀ a, (respond a).status ≠ 500) :
    Answers p A (do
      let found ← run operation
      admitOwner userId (owner found) id
      return respond found) := by
  refine Triple.bind (triple_run h) fun found => ?_
  refine Triple.bind (Q := fun _ => Stores.Intact none) ?_
    fun _ => Triple.pure fun _ h => ⟨h, hstatus found⟩
  unfold admitOwner
  split
  · exact triple_refuse (fun _ h => h) rfl
  · exact Triple.pure fun _ h => h

/-- The tables can keep what a request hands in: the terms of a contest, the name of a problem. -/
structure Storable (r : Request) : Prop where
  contest {terms : ContestTerms} :
    Matches r .createContest ∨ (∃ id, Matches r (.updateContest id)) →
    Input.contest.read.ofText r.body = .ok terms → terms.Storable
  newProblem {id : String} {new : NewProblem} : Matches r (.createProblem id) →
    Input.newProblem.read.ofText r.body = .ok new → Database.isStorable new.name = true
  problemChange {id problemId : String} {change : ProblemChange} :
    Matches r (.updateProblem id problemId) →
    Input.problemChange.read.ofText r.body = .ok change →
    ∀ name, change.name = some name → Database.isStorable name = true

/-- An endpoint leaves the stores intact, and they fail it only for what it hands in. -/
theorem answers_handle {r : Request} {e : Endpoint} (hmatch : Matches r e)
    (hstorable : p → Storable r) : Answers (κ := κ) p (Stores.Ready p) (handle r e) := by
  have hready : ∀ s : Stores κ, Stores.Ready p s → s.Intact none := fun _ => Stores.Ready.intact
  cases e with
  | health => exact Triple.pure fun s h => ⟨h.intact, (by decide : 200 ≠ 500)⟩
  | listContests =>
    refine Triple.bind (triple_query hready) fun q => ?_
    exact answers_respond (Contest.spares_list hready _) fun _ => (by decide : 200 ≠ 500)
  | getContest id =>
    refine Triple.bind (triple_identifier hready) fun id => ?_
    exact answers_respond (Contest.spares_get hready _) fun _ => (by decide : 200 ≠ 500)
  | register id =>
    refine Triple.bind (triple_caller hready) fun userId => ?_
    refine Triple.bind (triple_identifier hready) fun id => ?_
    exact answers_respond Registration.spares_register fun _ => (by decide : 201 ≠ 500)
  | unregister id =>
    refine Triple.bind (triple_caller hready) fun userId => ?_
    refine Triple.bind (triple_identifier hready) fun id => ?_
    exact answers_respond Registration.spares_unregister fun _ => (by decide : 200 ≠ 500)
  | listProblems id =>
    refine Triple.bind (triple_caller hready) fun userId => ?_
    refine Triple.bind (triple_identifier hready) fun id => ?_
    refine Triple.bind (triple_run (Contest.triple_checkVisibility hready)) fun _ => ?_
    exact answers_respond (Problem.spares_list fun s h => h.1.intact) fun _ => (by decide : 200 ≠ 500)
  | getProblem id problemId =>
    refine Triple.bind (triple_caller hready) fun userId => ?_
    refine Triple.bind (triple_identifier hready) fun id => ?_
    refine Triple.bind (triple_identifier hready) fun problemId => ?_
    refine Triple.bind (triple_run (Contest.triple_checkVisibility hready)) fun _ => ?_
    exact answers_respond (Problem.spares_get fun s h => h.1.intact) fun _ => (by decide : 200 ≠ 500)
  | createSubmission =>
    refine Triple.bind (triple_caller hready) fun userId => ?_
    refine Triple.bind (triple_body hready) fun new => Triple.of_fact fun _ => ?_
    refine Triple.bind (triple_check hready) fun _ => Triple.of_fact fun hcheck => ?_
    refine Triple.bind (triple_run (Contest.triple_checkVisibility hready)) fun _ => ?_
    exact answers_respond (Submission.spares_create fun _ => language_storable hcheck)
      fun _ => (by decide : 202 ≠ 500)
  | listSubmissions =>
    refine Triple.bind (triple_caller hready) fun userId => ?_
    refine Triple.bind (triple_query hready) fun q => ?_
    exact answers_respond (Submission.spares_list hready) fun _ => (by decide : 200 ≠ 500)
  | getSubmission id =>
    refine Triple.bind (triple_caller hready) fun userId => ?_
    refine Triple.bind (triple_identifier hready) fun id => ?_
    exact answers_shown (Submission.spares_details hready) fun _ => (by decide : 200 ≠ 500)
  | getSubmissionStatus id =>
    refine Triple.bind (triple_caller hready) fun userId => ?_
    refine Triple.bind (triple_identifier hready) fun id => ?_
    exact answers_shown (Submission.spares_status hready) fun _ => (by decide : 200 ≠ 500)
  | adminProbe =>
    refine Triple.bind (triple_caller hready) fun userId => ?_
    exact Triple.pure fun s h => ⟨h.intact, (by decide : 200 ≠ 500)⟩
  | createContest =>
    refine Triple.bind (triple_body hready) fun terms => Triple.of_fact fun hread => ?_
    refine Triple.bind (triple_check hready) fun _ => Triple.of_fact fun _ => ?_
    exact answers_respond (Contest.spares_create fun hp => (hstorable hp).contest (.inl hmatch) hread)
      fun _ => (by decide : 201 ≠ 500)
  | updateContest id =>
    refine Triple.bind (triple_identifier hready) fun _ => ?_
    refine Triple.bind (triple_body hready) fun terms => Triple.of_fact fun hread => ?_
    refine Triple.bind (triple_check hready) fun _ => Triple.of_fact fun _ => ?_
    exact answers_respond
      (Contest.spares_update fun hp => (hstorable hp).contest (.inr ⟨id, hmatch⟩) hread)
      fun _ => (by decide : 200 ≠ 500)
  | deleteContest id =>
    refine Triple.bind (triple_identifier hready) fun id => ?_
    exact answers_respond Contest.spares_delete fun _ => (by decide : 204 ≠ 500)
  | listRegistrations id =>
    refine Triple.bind (triple_identifier hready) fun id => ?_
    exact answers_respond (Registration.spares_list hready) fun _ => (by decide : 200 ≠ 500)
  | createProblem id =>
    refine Triple.bind (triple_identifier hready) fun _ => ?_
    refine Triple.bind (triple_body hready) fun new => Triple.of_fact fun hread => ?_
    refine Triple.bind (triple_check hready) fun _ => Triple.of_fact fun _ => ?_
    exact answers_respond
      (Problem.spares_create fun hp => (hstorable hp).newProblem hmatch hread)
      fun _ => (by decide : 201 ≠ 500)
  | updateProblem id problemId =>
    refine Triple.bind (triple_identifier hready) fun _ => ?_
    refine Triple.bind (triple_identifier hready) fun _ => ?_
    refine Triple.bind (triple_body hready) fun change => Triple.of_fact fun hread => ?_
    refine Triple.bind (triple_check hready) fun _ => Triple.of_fact fun _ => ?_
    exact answers_respond
      (Problem.spares_update fun hp => (hstorable hp).problemChange hmatch hread)
      fun _ => (by decide : 200 ≠ 500)
  | deleteProblem id problemId =>
    refine Triple.bind (triple_identifier hready) fun id => ?_
    refine Triple.bind (triple_identifier hready) fun problemId => ?_
    exact answers_respond Problem.spares_delete fun _ => (by decide : 204 ≠ 500)
  | updateLeaderboard id userId =>
    refine Triple.bind (triple_identifier hready) fun id => ?_
    refine Triple.bind (triple_identifier hready) fun userId => ?_
    refine Triple.bind (triple_body hready) fun patch => Triple.of_fact fun _ => ?_
    exact answers_respond Leaderboard.spares_update fun _ => (by decide : 204 ≠ 500)

/-- Who is no administrator is turned away. -/
theorem triple_admitAdmin {r : Request} (hA : ∀ s, A s → s.Intact none) :
    Triple A (admitAdmin r) (fun _ => A) (Failure.Harmless p) := by
  refine Triple.bind (triple_caller hA) fun userId => ?_
  refine Triple.bind (triple_run (Triple.reads hA rfl)) fun isAdmin => ?_
  cases isAdmin with
  | false => exact triple_refuse (fun s h => hA s h.1) rfl
  | true => exact Triple.pure fun _ h => h.1

theorem answers_guarded {r : Request} {e : Endpoint} (hmatch : Matches r e)
    (hstorable : p → Storable r) : Answers (κ := κ) p (Stores.Ready p) (Veil.guarded r e) := by
  unfold Veil.guarded
  cases e.isAdmin with
  | false => exact answers_handle hmatch hstorable
  | true =>
    exact Triple.bind (triple_admitAdmin fun _ => Stores.Ready.intact)
      fun _ => answers_handle hmatch hstorable

/-- A request leaves the stores intact, and they fail it only for what it hands in. -/
theorem serve_answers {r : Request} {s : Stores κ} (h : s.Ready p) (hstorable : p → Storable r) :
    (s.run (serve r)).2.Intact none ∧ (p → (s.run (serve r)).1.status ≠ 500) := by
  by_cases hmatch : ∃ e, Matches r e
  · obtain ⟨e, he⟩ := hmatch
    have hend := answers_guarded he hstorable s h
    rw [run_serve_of_matches he, status_withoutBody]
    generalize s.run (Veil.guarded r e).run = result at hend ⊢
    obtain ⟨failure | response, t⟩ := result
    · exact hend
    · exact ⟨hend.1, fun _ => hend.2⟩
  · obtain ⟨hstores, hstatus⟩ := run_serve_of_not_matches (fun e he => hmatch ⟨e, he⟩) s
    rw [hstores]
    exact ⟨h.intact, fun _ => Nat.ne_of_lt hstatus⟩

end Endpoints

end ContestPlatform.Http

namespace ContestPlatform

variable {κ : Type} [LawfulContentStore κ]

/-! ## Requests one after another -/

/-- Stores that are reached from an empty database: requests are served one after another, at any
    instants and with any identifiers drawn, rows are added from outside, and submissions are
    graded. -/
inductive Served : Stores κ → Prop where
  | start {s : Stores κ} (hempty : s.database = .empty) : Served s
  | visit {s : Stores κ} (h : Served s) (v : Visit) : Served (s.visit v).2
  | added {s : Stores κ} {db : Database} (h : Served s) (hadded : s.database.Added db) :
    Served { s with database := db }
  | graded {s : Stores κ} (h : Served s) (id : Uuid) (g : Database.Grade)
    (hstate : ∃ state : SubmissionState, g.status = state.name) :
    Served { s with database := s.database.grade id g s.database.results }

/-- Stores that are reached by requests lack nothing. -/
theorem Served.intact {s : Stores κ} (h : Served s) : s.Intact none := by
  induction h with
  | start hempty => exact .of_empty hempty
  | @visit s h v ih =>
    -- Whatever a request hands in, it leaves the stores intact.
    have hready : Stores.Ready False { s with now := v.now, ids := v.ids } :=
      ⟨ih.kept ⟨rfl, rfl⟩, False.elim, False.elim⟩
    exact (Http.serve_answers hready False.elim).1
  | added h hadded ih => exact ih.added hadded
  | graded h id g hstate ih =>
    obtain ⟨state, hstatus⟩ := hstate
    exact ih.graded id hstatus

/-- From an empty database, whatever was asked for before: a request that hands in what the tables
    can keep does not fail for the stores. -/
theorem kept_request_succeeds {s : Stores κ} (h : Served s) {v : Visit}
    (hclock : v.now.stamp?.isSome = true) (hfresh : s.Unused v.ids.draw.1)
    (hstorable : Http.Storable v.request) : (s.visit v).1.status ≠ 500 := by
  have hready : Stores.Ready True { s with now := v.now, ids := v.ids } :=
    ⟨h.intact.kept ⟨rfl, rfl⟩, fun _ => hclock, fun _ => hfresh.kept ⟨rfl, rfl⟩⟩
  exact (Http.serve_answers hready fun _ => hstorable).2 trivial

/-! ## Terms that cannot be kept -/

namespace Http

section Unkept

variable {r : Request} {userId : Uuid} {terms : ContestTerms} {A : Assertion κ}

/-- An administrator is let through. -/
theorem triple_admitted {E : Failure → Assertion κ} (hcaller : caller? r = some userId)
    (hA : ∀ s, A s → s.database.isAdmin userId = true) :
    Triple A (admitAdmin r) (fun _ => A) E := by
  unfold admitAdmin
  rw [caller_of_some hcaller, pure_bind]
  refine Triple.bind (Q := fun isAdmin s => isAdmin = true ∧ A s) (Triple.adapt
    (Triple.read rfl fun s hs => ⟨hA s hs, hs⟩)) fun isAdmin => Triple.of_fact fun htrue => ?_
  subst htrue
  exact Triple.pure fun _ h => h

theorem body_of_read {α : Type} {form : Input.Form α} {a : α}
    (htype : (r.visibleHeader? "content-type").any MediaType.isJson = true)
    (hsize : r.body.utf8ByteSize ≤ longestBody) (hread : form.read.ofText r.body = .ok a) :
    body r form = pure a := by
  unfold body
  simp only [htype, Nat.not_lt.mpr hsize, hread]
  rfl

/-- An administrator who hands in terms that pass all checks and that cannot be kept is told that
    the database failed. -/
theorem unkept_terms_fail (hmatch : Matches r .createContest) (hcaller : caller? r = some userId)
    (htype : (r.visibleHeader? "content-type").any MediaType.isJson = true)
    (hsize : r.body.utf8ByteSize ≤ longestBody)
    (hread : Input.contest.read.ofText r.body = .ok terms)
    (hcheck : Input.contest.check terms = .ok ()) (hwindows : terms.windowFlaw? = none)
    (hunkept : ¬ terms.Storable) {s : Stores κ} (hadmin : s.database.isAdmin userId = true) :
    (s.run (serve r)).1 = answered r (.database .unstorable) := by
  have hpassed : check Input.contest terms = pure () := by
    unfold check
    rw [hcheck]
  have hhandle : Triple (fun s : Stores κ => s.database.isAdmin userId = true)
      (handle r .createContest) (fun _ _ => False)
      (fun failure _ => failure = .fault (.database .unstorable)) := by
    unfold handle
    rw [body_of_read htype hsize hread, pure_bind, hpassed, pure_bind]
    refine Triple.bind (Q := fun _ _ => False) (Triple.adapt ?_) fun _ _ h => h.elim
    exact (Contest.fails_create hwindows hunkept).failure fun _ _ h => congrArg Failure.fault h
  have hend := Triple.bind (triple_admitted hcaller fun _ h => h) (fun _ => hhandle) s hadmin
  rw [run_serve_of_matches hmatch]
  change Assertion.Ends _ _ (s.run (Veil.guarded r .createContest).run).1 _ at hend
  generalize s.run (Veil.guarded r .createContest).run = result at hend ⊢
  obtain ⟨failure | response, t⟩ := result
  · obtain rfl : failure = .fault (.database .unstorable) := hend
    rfl
  · exact hend.elim

end Unkept

end Http

/-! ## Two names -/

/-- Stores with one user, who is an administrator, and nothing else. -/
def clerkStores : Stores Content.Memory :=
  { blankStores with database :=
      { Database.empty with
        users := [{ (default : UserProfile) with id := .ofNat 7 }]
        admins := [.ofNat 7] } }

theorem clerkStores_served : Served clerkStores := by
  have hstart : Served blankStores := .start rfl
  have huser := hstart.added (.user { (default : UserProfile) with id := .ofNat 7 })
  exact huser.added (.admin (.ofNat 7))

theorem clerkStores_unused (id : Uuid) : clerkStores.Unused id where
  contest := rfl
  problem := rfl
  submission := rfl
  statement _ := rfl
  code := rfl

/-- The administrator creates a contest of an hour. -/
def contestRequest (name : String) : Http.Request where
  method := "POST"
  address := ⟨"/api/v1/admin/contests", none⟩
  headers := [("x-user-id", (Uuid.ofNat 7).text), ("content-type", "application/json")]
  body := (ContestTerms.toJson { hourTerms with name := name }).print

theorem contestRequest_matches (name : String) :
    Http.Matches (contestRequest name) .createContest := by
  have hpath : Http.Route.ofPath? "/api/v1/admin/contests" = some .adminContests := by
    decide +kernel
  exact ⟨_, hpath, rfl⟩

/-- The terms of the contest are all that the request hands in. -/
theorem contestRequest_storable {name : String} {terms : ContestTerms}
    (hread : Input.contest.read.ofText (contestRequest name).body = .ok terms)
    (hkept : terms.Storable) : Http.Storable (contestRequest name) := by
  have hmatch := contestRequest_matches name
  constructor
  case contest =>
    intro terms' _ hread'
    obtain rfl := Except.ok.inj (hread.symm.trans hread')
    exact hkept
  case newProblem => exact fun hother => nomatch hmatch.unique hother
  case problemChange => exact fun hother => nomatch hmatch.unique hother

/-- A contest with a plain name is created. -/
theorem plain_name_succeeds :
    (clerkStores.visit ⟨dawn, .initial, contestRequest "Quiz"⟩).1.status ≠ 500 := by
  have hread : Input.contest.read.ofText (contestRequest "Quiz").body = .ok hourTerms := by
    decide +kernel
  have hkept : hourTerms.Storable := by
    constructor <;> decide
  have hstorable := contestRequest_storable hread hkept
  have hsucceeds : ∀ v : Visit, v.now.stamp?.isSome = true → Http.Storable v.request →
      (clerkStores.visit v).1.status ≠ 500 := fun v hclock hstorable =>
    kept_request_succeeds clerkStores_served hclock (clerkStores_unused _) hstorable
  exact hsucceeds ⟨dawn, .initial, contestRequest "Quiz"⟩ (by decide) hstorable

/-- A name with a NUL passes all checks, and the database fails to keep it. -/
theorem nul_name_fails :
    Served clerkStores ∧ dawn.stamp?.isSome = true ∧
      clerkStores.Unused IdSource.initial.draw.1 ∧
      Input.contest.check { hourTerms with name := "Quiz\x00" } = .ok () ∧
      (clerkStores.visit ⟨dawn, .initial, contestRequest "Quiz\x00"⟩).1.status = 500 := by
  have hread : Input.contest.read.ofText (contestRequest "Quiz\x00").body =
      .ok { hourTerms with name := "Quiz\x00" } := by
    decide +kernel
  have hcaller : Http.caller? (contestRequest "Quiz\x00") = some (.ofNat 7) := by
    decide +kernel
  have hunkept : ¬ ContestTerms.Storable { hourTerms with name := "Quiz\x00" } :=
    fun h => absurd h.name (by decide)
  have hanswer : (clerkStores.visit ⟨dawn, .initial, contestRequest "Quiz\x00"⟩).1 =
      Http.answered (contestRequest "Quiz\x00") (.database .unstorable) :=
    Http.unkept_terms_fail (contestRequest_matches _) hcaller (by decide +kernel)
      (by decide +kernel) hread rfl rfl hunkept rfl
  refine ⟨clerkStores_served, rfl, clerkStores_unused _, rfl, ?_⟩
  rw [hanswer, Http.answered, Http.status_withoutBody]
  rfl

end ContestPlatform
