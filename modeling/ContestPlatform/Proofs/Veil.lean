import ContestPlatform.Http.Serve
import ContestPlatform.Proofs.ProblemRows
import ContestPlatform.Proofs.TwoRuns

/-!
# Veils

A veil hides a part of what is known of problems: rows, fields of rows, or statements. Stores that
differ only behind the veil are twins. A caller who is no administrator, and whom the platform lets
see the problems of a contest only if they are in front of the veil, gets the same response from
twins, and they are twins again afterwards.

What has to be shown of a veil is said of single lookups. Everything else that requests do, and the
order in which they do it, is dealt with here once and for all.
-/

namespace ContestPlatform

open TwoRuns

/-- The problem without the right answers. -/
def Problem.withoutAnswer (p : Problem) : Problem :=
  { p with answer := [] }

/-- What is hidden of problems, told by what looks the same. -/
structure Veil (κ : Type) [ContentStore κ] where
  /-- Rows of problems that look the same. -/
  problems : List Problem → List Problem → Prop
  /-- Content stores that look the same. -/
  content : κ → κ → Prop
  /-- The contests whose problems are in front of the veil. -/
  Visible : Uuid → Prop
  /-- The row of a visible problem is the same, except for its right answers. -/
  find_eq {db db' : Database} {contestId : Uuid} (hps : problems db.problems db'.problems)
    (hvisible : Visible contestId) (id : Uuid) :
    (db.problem? contestId id).map Problem.withoutAnswer =
      (db'.problem? contestId id).map Problem.withoutAnswer
  /-- The list of the problems of a visible contest is the same. -/
  overviews_eq {db db' : Database} {contestId : Uuid} (hps : problems db.problems db'.problems)
    (hvisible : Visible contestId) : db.overviewsOf contestId = db'.overviewsOf contestId
  /-- The statement of a visible problem is the same, and reading it keeps the veil. -/
  get_eq {db db' : Database} {k k' : κ} {contestId id : Uuid} {p : Problem}
    (hps : problems db.problems db'.problems) (hk : content k k') (hvisible : Visible contestId)
    (hfind : db.problem? contestId id = some p) :
    (ContentStore.answer k (.get p.contentKey)).1 = (ContentStore.answer k' (.get p.contentKey)).1 ∧
      content (ContentStore.answer k (.get p.contentKey)).2
        (ContentStore.answer k' (.get p.contentKey)).2
  /-- The code of submissions is the same, and calls that concern it keep the veil. -/
  code_eq {k k' : κ} {call : Content.Call} {id : Uuid} (hk : content k k')
    (hcall : call.key = Submission.codeKey id) :
    (ContentStore.answer k call).1 = (ContentStore.answer k' call).1 ∧
      content (ContentStore.answer k call).2 (ContentStore.answer k' call).2

namespace Veil

variable {κ : Type} [ContentStore κ] (V : Veil κ)

/-- Stores that differ only behind the veil. -/
structure Twins (s s' : Stores κ) : Prop where
  now : s.now = s'.now
  ids : s.ids = s'.ids
  tables : s.database.withProblems [] = s'.database.withProblems []
  problems : V.problems s.database.problems s'.database.problems
  content : V.content s.content s'.content

variable {V}

theorem Twins.database_eq {s s' : Stores κ} (h : V.Twins s s') :
    s'.database = s.database.withProblems s'.database.problems := by
  have hself : s'.database = (s'.database.withProblems []).withProblems s'.database.problems := rfl
  rw [← h.tables] at hself
  exact hself

/-! ## Single calls -/

theorem same_now : Same V.Twins V.Twins V.Twins Service.now :=
  Agree.call .now .ok fun _ _ h => ⟨h.now, h⟩

theorem same_freshId : Same V.Twins V.Twins V.Twins Service.freshId := by
  refine Agree.call .freshId .ok fun s s' h => ?_
  have hid : s.ids.draw.1 = s'.ids.draw.1 := by rw [h.ids]
  have hids : s.ids.draw.2 = s'.ids.draw.2 := by rw [h.ids]
  exact ⟨hid, h.now, hids, h.tables, h.problems, h.content⟩

/-- Twins answer a call of the database the same if it keeps the rows of problems and they differ
    in nothing else that it looks at. -/
private theorem ends_database {s s' : Stores κ} (h : V.Twins s s') {call : Database.Call}
    (hkeep : ∀ db : Database, (db.answer call).2.problems = db.problems)
    (hanswer : (s.database.withProblems s'.database.problems).answer call =
      ((s.database.answer call).1,
        (s.database.answer call).2.withProblems s'.database.problems)) :
    Ends V.Twins (fun a a' t t' => a = a' ∧ V.Twins t t') (s.answer (.database call)).1
      (s'.answer (.database call)).1 (s.answer (.database call)).2
      (s'.answer (.database call)).2 := by
  have htwins : V.Twins (s.answer (.database call)).2 (s'.answer (.database call)).2 := by
    -- Both tables are the result of one call, each with problems of its own.
    refine ⟨h.now, h.ids, ?_, ?_, h.content⟩
    · simp only [Stores.answer]
      rw [h.database_eq, hanswer]
      rfl
    · simp only [Stores.answer]
      rw [hkeep, hkeep]
      exact h.problems
  have hsame : (s'.answer (.database call)).1 = (s.answer (.database call)).1 := by
    simp only [Stores.answer]
    rw [h.database_eq, hanswer]
  rw [hsame]
  generalize (s.answer (.database call)).1 = answer
  cases answer with
  | error fault => exact ⟨rfl, htwins⟩
  | ok result => exact ⟨rfl, htwins⟩

theorem same_database {call : Database.Call} (h : call.overlooksProblems = true) :
    Same V.Twins V.Twins V.Twins (Service.database call) :=
  Agree.call (.database call) id fun _ _ htwins =>
    ends_database htwins (Database.problems_answer h) (Database.answer_withProblems h _ _)

/-- Twins that both have a problem. -/
def Has (V : Veil κ) (problemId : Uuid) : Bond κ := fun s s' =>
  V.Twins s s' ∧ s.database.hasProblem problemId = true ∧ s'.database.hasProblem problemId = true

theorem same_now_has {problemId : Uuid} :
    Same V.Twins (V.Has problemId) (V.Has problemId) Service.now :=
  Agree.call .now .ok fun _ _ h => ⟨h.1.now, h⟩

theorem same_freshId_has {problemId : Uuid} :
    Same V.Twins (V.Has problemId) (V.Has problemId) Service.freshId :=
  Agree.call .freshId .ok fun s s' h =>
    ⟨(same_freshId s s' h.1).1, (same_freshId s s' h.1).2, h.2⟩

/-- The insertion of a submission to a problem that both runs have. -/
theorem same_insertSubmission (submission : Submission) :
    Same V.Twins (V.Has submission.problemId) V.Twins
      (Service.database (.insertSubmission submission)) := by
  refine Agree.call (.database (.insertSubmission submission)) id fun s s' h => ?_
  obtain ⟨htwins, hproblem, hproblem'⟩ := h
  exact ends_database htwins (Database.problems_insertSubmission · submission)
    (Database.insertSubmission_withProblems (hproblem'.trans hproblem.symm))

theorem same_code {call : Content.Call} {id : Uuid} (hcall : call.key = Submission.codeKey id) :
    Same V.Twins V.Twins V.Twins (Service.attempt call) :=
  Agree.call (.content call) .ok fun _ _ h =>
    ⟨(V.code_eq h.content hcall).1, h.now, h.ids, h.tables, h.problems,
      (V.code_eq h.content hcall).2⟩

/-! ## Operations -/

theorem same_found {α : Type} (fault : Fault) (a? : Option α) :
    Same V.Twins V.Twins V.Twins (Service.found fault a?) := by
  cases a? with
  | none => exact Same.throw fun _ _ h => h
  | some a => exact Same.pure fun _ _ h => h

theorem same_content {call : Content.Call} {A : Bond κ}
    (h : Same V.Twins A V.Twins (Service.attempt call)) :
    Same V.Twins A V.Twins (Service.content call) := by
  refine h.bind fun answer => ?_
  cases answer with
  | error fault => exact Same.throw fun _ _ h => h
  | ok result => exact Same.pure fun _ _ h => h

/-- The rows of a visible problem in two runs. -/
structure Rows (V : Veil κ) (contestId id : Uuid) (p p' : Problem) (s s' : Stores κ) : Prop where
  same : p.withoutAnswer = p'.withoutAnswer
  twins : V.Twins s s'
  row : s.database.problem? contestId id = some p
  row' : s'.database.problem? contestId id = some p'

/-- A visible problem is found in both runs or in none. -/
theorem agree_findProblem {contestId : Uuid} (hvisible : V.Visible contestId) (id : Uuid)
    (fault : Fault) :
    Agree V.Twins V.Twins (V.Rows contestId id)
      (do Service.found fault (← Service.database (.findProblem contestId id)))
      (do Service.found fault (← Service.database (.findProblem contestId id))) := by
  refine Agree.bind (Q := fun p? p?' s s' => p?.map Problem.withoutAnswer =
      p?'.map Problem.withoutAnswer ∧ V.Twins s s' ∧ s.database.problem? contestId id = p? ∧
      s'.database.problem? contestId id = p?') ?_ fun p? p?' => ?_
  · exact Agree.call (.database (.findProblem contestId id)) (fun a => a) fun s s' h =>
      ⟨V.find_eq h.problems hvisible id, h, rfl, rfl⟩
  · rcases p? with _ | p <;> rcases p?' with _ | p'
    · exact Agree.throw fun s s' h => h.2.1
    -- Without their right answers the rows are equal, so none is missing in one run only.
    · exact fun s s' h => nomatch h.1
    · exact fun s s' h => nomatch h.1
    · exact Agree.pure fun s s' h => ⟨Option.some.inj h.1, h.2.1, h.2.2.1, h.2.2.2⟩

theorem same_getProblem {contestId : Uuid} (hvisible : V.Visible contestId) (id : Uuid) :
    Same V.Twins V.Twins V.Twins (Problem.get contestId id) := by
  refine Agree.bind (agree_findProblem hvisible id _) fun p p' => ?_
  -- The rows may differ in their right answers, which the rest of the operation does not read.
  intro s s' hrows
  have hkey : p'.contentKey = p.contentKey := (congrArg Problem.contentKey hrows.same).symm
  have hstatement : p'.statement = p.statement := by
    funext description
    exact (congrArg (·.statement description) hrows.same).symm
  have hget : Same V.Twins (V.Rows contestId id p p') V.Twins
      (Service.attempt (.get p.contentKey)) := by
    refine Agree.call (.content (.get p.contentKey)) .ok fun t t' h => ?_
    obtain ⟨hsame, hcontent⟩ := V.get_eq h.twins.problems h.twins.content hvisible h.row
    exact ⟨hsame, h.twins.now, h.twins.ids, h.twins.tables, h.twins.problems, hcontent⟩
  rw [hkey, hstatement]
  refine Same.bind (same_content hget) (fun stored => ?_) s s' hrows
  cases ProblemDocument.ofText? stored with
  | none => exact Same.throw fun _ _ h => h
  | some document => exact Same.pure fun _ _ h => h

theorem same_listProblems {contestId : Uuid} (hvisible : V.Visible contestId) :
    Same V.Twins V.Twins V.Twins (Problem.list contestId) := by
  refine Same.bind (same_database rfl) fun found => ?_
  cases found with
  | false => exact Same.throw fun _ _ h => h
  | true =>
    exact Agree.call (.database (.overviews contestId)) (fun a => a) fun s s' h =>
      ⟨V.overviews_eq h.problems hvisible, h⟩

theorem same_findContest (id : Uuid) : Same V.Twins V.Twins V.Twins (Contest.find id) :=
  Same.bind (same_database rfl) fun _ => same_found _ _

theorem same_getContest (id : Uuid) (viewer : Option Uuid) :
    Same V.Twins V.Twins V.Twins (Contest.get id viewer) := by
  refine Same.bind (same_findContest id) fun contest => ?_
  have hend : ∀ isRegistered : Option Bool, Same V.Twins V.Twins V.Twins
      (do return contest.detailAt (← Service.now) isRegistered) :=
    fun isRegistered => Same.bind same_now fun now => Same.pure fun _ _ h => h
  cases viewer with
  | none => exact hend none
  | some userId => exact Same.bind (Same.map (same_database rfl)) hend

theorem same_details (contests : List Contest) :
    Same V.Twins V.Twins V.Twins (Contest.details contests) := by
  induction contests with
  | nil => exact Same.pure fun _ _ h => h
  | cons contest rest ih =>
    exact Same.bind same_now fun now => Same.bind ih fun details => Same.pure fun _ _ h => h

theorem same_listContests (page : UInt32) : Same V.Twins V.Twins V.Twins (Contest.list page) :=
  Same.bind (same_database rfl) same_details

theorem same_checkVisibility (contestId userId : Uuid) :
    Same V.Twins V.Twins V.Twins (Contest.checkVisibility contestId userId) := by
  refine Same.bind (same_findContest contestId) fun contest => ?_
  refine Same.bind (same_database rfl) fun registered => ?_
  -- The clock is read only for users who are registered.
  have hend : Same V.Twins V.Twins V.Twins (do
      if contest.runningAt (← Service.now) = .upcoming then
        throw (.contestNotRunning contestId)
      return contest : Service Contest) := by
    refine Same.bind same_now fun now => ?_
    split
    · exact Same.throw fun _ _ h => h
    · exact Same.pure fun _ _ h => h
  cases registered with
  | false => exact Same.throw fun _ _ h => h
  | true => exact hend

theorem same_openContest (contestId : Uuid) :
    Same V.Twins V.Twins V.Twins (Registration.openContest contestId) := by
  refine Same.bind (same_findContest contestId) fun contest => Same.bind same_now fun now => ?_
  split
  · exact Same.pure fun _ _ h => h
  · exact Same.throw fun _ _ h => h

theorem same_register (contestId userId : Uuid) :
    Same V.Twins V.Twins V.Twins (Registration.register contestId userId) := by
  refine Same.bind (same_openContest contestId) fun contest => ?_
  refine Same.bind (same_database rfl) fun profile? => ?_
  refine Same.bind (same_found _ _) fun profile => ?_
  -- Eligible users are inserted, and the insertion tells whether they were there.
  have hend : Same V.Twins V.Twins V.Twins (do
      if ← Service.database (.insertRegistration contestId userId (← Service.now)) then return ()
      throw (.alreadyRegistered contestId userId) : Service Unit) := by
    refine Same.bind same_now fun now => Same.bind (same_database rfl) fun added => ?_
    cases added with
    | false => exact Same.throw fun _ _ h => h
    | true => exact Same.pure fun _ _ h => h
  cases contest.isEligible profile.currentYear with
  | false => exact Same.throw fun _ _ h => h
  | true => exact hend

theorem same_unregister (contestId userId : Uuid) :
    Same V.Twins V.Twins V.Twins (Registration.unregister contestId userId) := by
  refine Same.bind (same_openContest contestId) fun contest => ?_
  refine Same.bind (same_database rfl) fun removed => ?_
  cases removed with
  | false => exact Same.throw fun _ _ h => h
  | true => exact Same.pure fun _ _ h => h

theorem same_createSubmission (userId : Uuid) {new : NewSubmission}
    (hvisible : V.Visible new.contestId) :
    Same V.Twins V.Twins V.Twins (Submission.create userId new) := by
  have hcode : Same V.Twins V.Twins V.Twins (Submission.requiredCode new) := by
    -- That code is missing is found out before the problem is looked at.
    unfold Submission.requiredCode
    cases new.kind with
    | mcq => exact Same.pure fun _ _ h => h
    | code => exact Same.map (same_found _ _)
  refine Same.bind hcode fun code => ?_
  rw [← bind_assoc]
  refine Agree.bind (agree_findProblem hvisible new.problemId _) fun p p' => ?_
  intro s s' hrows
  have hkind : p'.kind = p.kind := (congrArg Problem.kind hrows.same).symm
  rw [hkind]
  -- A submission of the wrong kind is refused in both runs, and then nothing was changed.
  by_cases hmatch : p.kind = new.kind
  · rw [if_neg (not_not_intro hmatch)]
    -- From here on the runs do the same, and both have the problem.
    have hboth : V.Has new.problemId s s' := ⟨hrows.twins,
      Database.hasProblem_of_problem? hrows.row, Database.hasProblem_of_problem? hrows.row'⟩
    refine (?_ : Same V.Twins (V.Has new.problemId) V.Twins _) s s' hboth
    refine Same.bind same_freshId_has fun id => Same.bind same_now_has fun now => ?_
    refine Same.bind (same_insertSubmission (.ofNew id userId now new)) fun _ => ?_
    cases code with
    | none => exact Same.pure fun _ _ h => h
    | some body =>
      exact Same.bind (same_content (same_code rfl)) fun _ => Same.pure fun _ _ h => h
  · rw [if_pos hmatch]
    exact ⟨rfl, hrows.twins⟩

theorem same_status (id : Uuid) : Same V.Twins V.Twins V.Twins (Submission.status id) :=
  Same.bind (same_database rfl) fun _ => same_found _ _

theorem same_submissionDetails (id : Uuid) :
    Same V.Twins V.Twins V.Twins (Submission.details id) := by
  refine Same.bind (same_database rfl) fun submission? => ?_
  refine Same.bind (same_found _ _) fun submission => ?_
  -- Only code has a text in the content store; the results are read in any case.
  have hend : ∀ code : Option String, Same V.Twins V.Twins V.Twins (do
      return ⟨submission, code, ← Service.database (.testResults id)⟩ :
        Service SubmissionDetails) :=
    fun code => Same.bind (same_database rfl) fun results => Same.pure fun _ _ h => h
  cases submission.kind with
  | mcq => exact hend none
  | code => exact Same.bind (Same.map (same_content (same_code rfl))) hend

theorem same_listSubmissions (userId problemId : Uuid) (page : UInt32) :
    Same V.Twins V.Twins V.Twins (Submission.list userId problemId page) :=
  same_database rfl

/-! ## Requests -/

/-- The platform lets a user see the problems of a contest. -/
def Lets (s : Stores κ) (contestId userId : Uuid) : Prop :=
  ∃ contest, (s.perform (Contest.checkVisibility contestId userId)).1 = .ok contest

/-- The caller of a request is no administrator, and sees no problems behind the veil. -/
def Outsider (V : Veil κ) (r : Http.Request) (s : Stores κ) : Prop :=
  ∀ userId, Http.caller? r = some userId →
    userId ∉ s.database.admins ∧ ∀ contestId, Lets s contestId userId → V.Visible contestId

/-- Twins for the request of an outsider. -/
def Before (V : Veil κ) (r : Http.Request) : Bond κ := fun s s' =>
  V.Twins s s' ∧ V.Outsider r s

/-- Twins for a user who sees no problems behind the veil. -/
def BeforeAs (V : Veil κ) (userId : Uuid) : Bond κ := fun s s' =>
  V.Twins s s' ∧ ∀ contestId, Lets s contestId userId → V.Visible contestId

section Arguments

open Http

variable {A : Bond κ}

theorem agree_caller (r : Request) :
    Agree V.Twins (V.Before r) (fun u u' s s' => u = u' ∧ V.BeforeAs u s s') (caller r)
      (caller r) := by
  unfold caller
  cases hcaller : caller? r with
  | none => exact Agree.throw fun _ _ h => h.1
  | some userId =>
    exact Agree.pure fun s s' h => ⟨rfl, h.1, (h.2 userId hcaller).2⟩

theorem same_identifier (hA : ∀ s s', A s s' → V.Twins s s') (segment : String) :
    Same V.Twins A A (identifier segment) := by
  unfold identifier
  cases (Text.Percent.decodeText? segment).bind Uuid.ofText? with
  | none => exact Same.throw hA
  | some id => exact Same.pure fun _ _ h => h

theorem same_query {α : Type} (hA : ∀ s s', A s s' → V.Twins s s') (r : Request)
    (read : String → Option α) : Same V.Twins A A (query r read) := by
  unfold query
  cases read (r.address.query.getD "") with
  | none => exact Same.throw hA
  | some q => exact Same.pure fun _ _ h => h

theorem same_body {α : Type} (hA : ∀ s s', A s s' → V.Twins s s') (r : Request)
    (form : Input.Form α) : Same V.Twins A A (body r form) := by
  unfold body
  cases (r.visibleHeader? "content-type").any MediaType.isJson with
  | false => exact Same.throw hA
  | true =>
    by_cases hlong : longestBody < r.body.utf8ByteSize
    · simp only [hlong]
      exact Same.throw hA
    · simp only [hlong]
      cases form.read.ofText r.body with
      | error refusal => exact Same.throw hA
      | ok a => exact Same.pure fun _ _ h => h

theorem same_check {α : Type} (hA : ∀ s s', A s s' → V.Twins s s') (form : Input.Form α) (a : α) :
    Same V.Twins A A (check form a) := by
  unfold check
  cases form.check a with
  | error fault => exact Same.throw hA
  | ok _ => exact Same.pure fun _ _ h => h

end Arguments

/-- A contest whose problems a user may see is visible. -/
theorem agree_checkVisibility (contestId userId : Uuid) :
    Agree V.Twins (V.BeforeAs userId) (fun _ _ s s' => V.Visible contestId ∧ V.Twins s s')
      (Contest.checkVisibility contestId userId) (Contest.checkVisibility contestId userId) := by
  -- The check is one operation of its own, so its run is the one that `Lets` speaks of.
  intro s s' h
  have hend := same_checkVisibility contestId userId s s' h.1
  have hlets : ∀ contest, (s.run (Contest.checkVisibility contestId userId).run).1 = .ok contest →
      V.Visible contestId :=
    fun contest hcontest => h.2 contestId ⟨contest, hcontest⟩
  generalize s.run (Contest.checkVisibility contestId userId).run = end₁ at hend hlets ⊢
  generalize s'.run (Contest.checkVisibility contestId userId).run = end₂ at hend ⊢
  rcases end₁ with ⟨fault | contest, t⟩ <;> rcases end₂ with ⟨fault' | contest', t'⟩
  · exact hend
  · exact hend
  · exact hend
  · exact ⟨hlets contest rfl, hend.2⟩

/-! ## Endpoints -/

section Endpoints

open Http

theorem before_twins {r : Request} (s s' : Stores κ) (h : V.Before r s s') : V.Twins s s' := h.1

theorem beforeAs_twins {userId : Uuid} (s s' : Stores κ) (h : V.BeforeAs userId s s') :
    V.Twins s s' := h.1

theorem same_respond {α : Type} {A : Bond κ} {operation : Service α} (respond : α → Response)
    (h : Same V.Twins A V.Twins operation) :
    Same V.Twins A V.Twins (do return respond (← run operation) : Handler Response) :=
  Same.bind (Agree.adapt h) fun _ => Same.pure fun _ _ h => h

theorem same_called {r : Request} {f : Uuid → Handler Response}
    (hf : ∀ userId, Same V.Twins (V.BeforeAs userId) V.Twins (f userId)) :
    Same V.Twins (V.Before r) V.Twins (caller r >>= f) := by
  refine Agree.bind (agree_caller r) fun userId userId' => Agree.of_fact fun heq => ?_
  subst heq
  exact hf userId

theorem same_calledAt {r : Request} {segment : String} {f : Uuid → Uuid → Handler Response}
    (hf : ∀ userId id, Same V.Twins (V.BeforeAs userId) V.Twins (f userId id)) :
    Same V.Twins (V.Before r) V.Twins (do
      let userId ← caller r
      let id ← identifier segment
      f userId id) :=
  same_called fun userId => Same.bind (same_identifier beforeAs_twins segment) (hf userId)

/-- What only users with a view of a contest get. -/
theorem same_visible {contestId userId : Uuid} {x : Handler Response}
    (hx : V.Visible contestId → Same V.Twins V.Twins V.Twins x) :
    Same V.Twins (V.BeforeAs userId) V.Twins (do
      let _ ← run (Contest.checkVisibility contestId userId)
      x) :=
  Agree.bind (Agree.adapt (agree_checkVisibility contestId userId)) fun _ _ => Agree.of_fact hx

/-- The endpoints that are open to all respond the same to an outsider. -/
theorem same_handle {r : Request} {e : Endpoint} (he : e.isAdmin = false) :
    Same V.Twins (V.Before r) V.Twins (handle r e) := by
  cases e with
  | health => exact Same.pure before_twins
  | listContests =>
    refine Same.bind (same_query before_twins r _) fun q => ?_
    exact same_respond _ ((same_listContests _).mono before_twins)
  | getContest id =>
    refine Same.bind (same_identifier before_twins id) fun id => ?_
    exact same_respond _ ((same_getContest id _).mono before_twins)
  | register id =>
    refine same_calledAt fun userId id => ?_
    exact same_respond _ ((same_register id userId).mono beforeAs_twins)
  | unregister id =>
    refine same_calledAt fun userId id => ?_
    exact same_respond _ ((same_unregister id userId).mono beforeAs_twins)
  | listProblems id =>
    refine same_calledAt fun userId id => same_visible fun hvisible => ?_
    exact same_respond _ (same_listProblems hvisible)
  | getProblem id problemId =>
    refine same_calledAt fun userId id => ?_
    refine Same.bind (same_identifier beforeAs_twins problemId) fun problemId => ?_
    exact same_visible fun hvisible => same_respond _ (same_getProblem hvisible problemId)
  | createSubmission =>
    refine same_called fun userId => ?_
    refine Same.bind (same_body beforeAs_twins r _) fun new => ?_
    refine Same.bind (same_check beforeAs_twins _ new) fun _ => ?_
    exact same_visible fun hvisible => same_respond _ (same_createSubmission userId hvisible)
  | listSubmissions =>
    refine same_called fun userId => ?_
    refine Same.bind (same_query beforeAs_twins r _) fun q => ?_
    exact same_respond _
      ((same_listSubmissions userId q.problemId _).mono beforeAs_twins)
  | getSubmission id =>
    refine same_calledAt fun userId id => ?_
    refine Same.bind (Agree.adapt ((same_submissionDetails id).mono beforeAs_twins))
      fun details => ?_
    -- Whose submission it is was read before, and was the same.
    unfold admitOwner
    split
    · exact Same.throw fun _ _ h => h
    · exact Same.pure fun _ _ h => h
  | getSubmissionStatus id =>
    refine same_calledAt fun userId id => ?_
    refine Same.bind (Agree.adapt ((same_status id).mono beforeAs_twins)) fun status => ?_
    unfold admitOwner
    split
    · exact Same.throw fun _ _ h => h
    · exact Same.pure fun _ _ h => h
  -- The others are for administrators.
  | _ => exact nomatch he

/-- An outsider does not get through to the endpoints of administrators. -/
theorem agree_admitAdmin (r : Request) :
    Agree V.Twins (V.Before r) (fun _ _ _ _ => False) (admitAdmin r) (admitAdmin r) := by
  unfold admitAdmin caller
  cases hcaller : caller? r with
  | none => exact Agree.throw before_twins
  | some userId =>
    have hcall : Agree V.Twins (V.Before r)
        (fun isAdmin isAdmin' s s' => (isAdmin = false ∧ isAdmin' = false) ∧ V.Twins s s')
        (Service.database (.isAdmin userId)) (Service.database (.isAdmin userId)) := by
      refine Agree.call (.database (.isAdmin userId)) (fun a => a) fun s s' h => ?_
      -- The table of administrators is the same in both runs, and the caller is not in it.
      have hnot : s.database.isAdmin userId = false := by
        rw [Database.isAdmin, List.contains_eq_mem, decide_eq_false (h.2 userId hcaller).1]
      have hnot' : s'.database.isAdmin userId = false := by
        rw [h.1.database_eq]
        exact hnot
      exact ⟨⟨hnot, hnot'⟩, h.1⟩
    simp only [pure_bind]
    refine Agree.bind (Agree.adapt hcall) fun isAdmin isAdmin' => Agree.of_fact fun hfalse => ?_
    obtain ⟨rfl, rfl⟩ := hfalse
    exact Agree.throw fun _ _ h => h

/-- What an endpoint does with a request, the check of administrators included. -/
def guarded (r : Request) (e : Endpoint) : Handler Response := do
  if e.isAdmin then admitAdmin r
  handle r e

theorem run_respond (handler : Handler Response) (s : Stores κ) :
    s.run (respond handler) =
      (match (s.run handler.run).1 with
        | .ok response => response
        | .error failure => failure.response, (s.run handler.run).2) := by
  refine (Program.run_bind Stores.answer handler.run _ s).trans ?_
  unfold Stores.run
  generalize Program.run Stores.answer handler.run s = result
  rcases result with ⟨failure | response, s'⟩
  · rfl
  · rfl

/-- What is done to a response in the end does not concern the stores. -/
theorem run_finish (finish : Response → Response) (p : StoreProgram Response) (s : Stores κ) :
    s.run (do return finish (← p)) = (finish (s.run p).1, (s.run p).2) :=
  Program.run_bind Stores.answer p _ s

/-- A handler that does the same to twins responds the same. -/
theorem respond_eq {r : Request} {handler : Handler Response}
    (hsame : Same V.Twins (V.Before r) V.Twins handler) {s s' : Stores κ} (h : V.Before r s s') :
    (s.run (respond handler)).1 = (s'.run (respond handler)).1 ∧
      V.Twins (s.run (respond handler)).2 (s'.run (respond handler)).2 := by
  have hend := hsame s s' h
  rw [run_respond, run_respond]
  generalize s.run handler.run = end₁ at hend ⊢
  generalize s'.run handler.run = end₂ at hend ⊢
  -- Equal failures have equal responses.
  rcases end₁ with ⟨failure | response, t⟩ <;> rcases end₂ with ⟨failure' | response', t'⟩
  · exact ⟨congrArg Failure.response hend.1, hend.2⟩
  · exact hend.elim
  · exact hend.elim
  · exact hend

/-- What comes after the check of administrators does not concern an outsider. -/
theorem same_admitted {r : Request} (isAdmin : Bool) {handler : Handler Response}
    (hopen : isAdmin = false → Same V.Twins (V.Before r) V.Twins handler) :
    Same V.Twins (V.Before r) V.Twins (do
      if isAdmin then admitAdmin r
      handler) := by
  cases isAdmin with
  | false => exact hopen rfl
  | true => exact Agree.bind (agree_admitAdmin r) fun _ _ _ _ hfalse => hfalse.elim

/-- An outsider gets the same response from every endpoint. -/
theorem serveEndpoint_eq {r : Request} (e : Endpoint) {s s' : Stores κ} (h : V.Before r s s') :
    (s.run (serveEndpoint r e)).1 = (s'.run (serveEndpoint r e)).1 ∧
      V.Twins (s.run (serveEndpoint r e)).2 (s'.run (serveEndpoint r e)).2 :=
  respond_eq (same_admitted e.isAdmin same_handle) h

/-- An outsider is told the same of every method that a route does not allow. -/
theorem serveNotAllowed_eq {r : Request} (route : Route) {s s' : Stores κ} (h : V.Before r s s') :
    (s.run (serveNotAllowed r route)).1 = (s'.run (serveNotAllowed r route)).1 ∧
      V.Twins (s.run (serveNotAllowed r route)).2 (s'.run (serveNotAllowed r route)).2 :=
  respond_eq (same_admitted route.isAdmin fun _ => Same.pure before_twins) h

/-- An outsider gets the same response to every request, and twins stay twins. -/
theorem serve_eq {r : Request} {s s' : Stores κ} (h : V.Twins s s') (houtsider : V.Outsider r s) :
    (s.run (serve r)).1 = (s'.run (serve r)).1 ∧
      V.Twins (s.run (serve r)).2 (s'.run (serve r)).2 := by
  -- Where no route is reached, the response depends on nothing but the request.
  unfold serve
  by_cases hoptions : r.method = "OPTIONS"
  · simp only [if_pos hoptions]
    exact ⟨rfl, h⟩
  · simp only [if_neg hoptions]
    cases Route.ofPath? r.address.path with
    | none => exact ⟨rfl, h⟩
    | some route =>
      dsimp only
      cases route.endpoint? r.method with
      | none =>
        obtain ⟨hresponse, htwins⟩ := serveNotAllowed_eq route ⟨h, houtsider⟩
        have hrun := run_finish (κ := κ)
          (fun response => tellAllowed route (withoutBody r (compress r response)))
          (serveNotAllowed r route)
        rw [hrun, hrun, hresponse]
        exact ⟨rfl, htwins⟩
      | some e =>
        obtain ⟨hresponse, htwins⟩ := serveEndpoint_eq e ⟨h, houtsider⟩
        have hrun := run_finish (κ := κ) (fun response => withoutBody r (compress r response))
          (serveEndpoint r e)
        rw [hrun, hrun, hresponse]
        exact ⟨rfl, htwins⟩

end Endpoints

end Veil

end ContestPlatform
