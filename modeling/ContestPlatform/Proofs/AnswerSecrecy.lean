import ContestPlatform.Content.Memory
import ContestPlatform.Proofs.DatabaseEffects
import ContestPlatform.Proofs.Veil
import Mathlib.Data.List.Forall2

/-!
# The right answers are secret

Whatever outsiders ask for, one request after another, at any time and with any identifiers drawn,
the right answers of problems show in no response, and leak nowhere from where they could show
later.
-/

namespace ContestPlatform

/-! ## The veil over the right answers -/

theorem Database.map_problem? (db : Database) (contestId id : Uuid) :
    (db.problem? contestId id).map Problem.withoutAnswer =
      (db.problems.map Problem.withoutAnswer).find? (isProblemOf contestId id) := by
  rw [List.find?_map]
  rfl

theorem Database.overviewsOf_eq_map (db : Database) (contestId : Uuid) :
    db.overviewsOf contestId =
      (((db.problems.map Problem.withoutAnswer).filter (·.contestId == contestId)).mergeSort
        namedEarlier).map Problem.overview := by
  have hsort : ∀ ps : List Problem, (ps.map Problem.withoutAnswer).mergeSort namedEarlier =
      (ps.mergeSort namedEarlier).map Problem.withoutAnswer := by
    -- The order of the list looks at names and identifiers only.
    intro ps
    refine (List.map_mergeSort ?_).symm
    intro p _ q _
    rfl
  rw [List.filter_map, hsort, List.map_map]
  rfl

/-- The veil over the right answers of all problems. -/
def answerVeil (κ : Type) [ContentStore κ] : Veil κ where
  problems ps ps' := ps.map Problem.withoutAnswer = ps'.map Problem.withoutAnswer
  content k k' := k = k'
  Visible _ := True
  find_eq hps _ id := by
    rw [Database.map_problem?, Database.map_problem?, hps]
  overviews_eq hps _ := by
    rw [Database.overviewsOf_eq_map, Database.overviewsOf_eq_map, hps]
  get_eq _ hk _ _ := by
    rw [hk]
    exact ⟨rfl, rfl⟩
  code_eq hk _ := by
    rw [hk]
    exact ⟨rfl, rfl⟩

/-! ## Administrators -/

namespace Database

/-- No call makes or unmakes an administrator. -/
theorem admins_answer (db : Database) (call : Call) :
    (db.answer call).2.admins = db.admins :=
  (effect_answer db call).admins_eq

end Database

namespace Stores

variable {κ : Type} [ContentStore κ]

/-- No program makes or unmakes an administrator. -/
theorem admins_run {α : Type} (s : Stores κ) (p : StoreProgram α) :
    (s.run p).2.database.admins = s.database.admins := by
  unfold run
  induction p generalizing s with
  | done a => rfl
  | ask call next ih =>
    -- Only calls of the database touch its tables.
    refine (ih _ _).trans ?_
    cases call with
    | database call => exact Database.admins_answer s.database call
    | _ => rfl

/-! ## Requests one after another -/

end Stores

/-- A request with what is outside of the stores: the instant at which it is served, and the source
    of the identifiers that are drawn meanwhile. -/
structure Visit where
  now : Instant
  ids : IdSource
  request : Http.Request

namespace Stores

variable {κ : Type} [ContentStore κ]

/-- Serve a request at its instant with its identifiers. -/
def visit (s : Stores κ) (v : Visit) : Http.Response × Stores κ :=
  { s with now := v.now, ids := v.ids }.run (Http.serve v.request)

/-- Serve requests one after another: the response to each, and the stores after it. -/
def visits (s : Stores κ) : List Visit → List (Http.Response × Stores κ)
  | [] => []
  | v :: rest => s.visit v :: (s.visit v).2.visits rest

/-- The stores without the right answers of problems. -/
def withoutAnswers (s : Stores κ) : Stores κ :=
  { s with database :=
      s.database.withProblems (s.database.problems.map Problem.withoutAnswer) }

end Stores

/-- Stores that are equal except for the right answers of problems. -/
def SameUpToAnswers {κ : Type} (s s' : Stores κ) : Prop :=
  s.withoutAnswers = s'.withoutAnswers

section Visits

variable {κ : Type} [ContentStore κ] {s s' : Stores κ}

/-- Being equal except for the right answers is to differ only behind the veil. -/
theorem sameUpToAnswers_iff : SameUpToAnswers s s' ↔ (answerVeil κ).Twins s s' := by
  constructor
  · intro h
    have hproblems : s.database.problems.map Problem.withoutAnswer =
      s'.database.problems.map Problem.withoutAnswer := congrArg (·.database.problems) h
    have hcontent : s.content = s'.content := congrArg (·.content) h
    exact ⟨congrArg (·.now) h, congrArg (·.ids) h, congrArg (·.database.withProblems []) h,
      hproblems, hcontent⟩
  · rintro ⟨hnow, hids, htables, hproblems, hcontent⟩
    -- The same tables without problems, and the same problems without right answers.
    have hdatabase := congrArg (Database.withProblems ·
      (s'.database.problems.map Problem.withoutAnswer)) htables
    obtain ⟨now, ids, database, content⟩ := s
    obtain ⟨now', ids', database', content'⟩ := s'
    obtain rfl : now = now' := hnow
    obtain rfl : ids = ids' := hids
    obtain rfl : content = content' := hcontent
    have hps : database.problems.map Problem.withoutAnswer =
      database'.problems.map Problem.withoutAnswer := hproblems
    simp only [SameUpToAnswers, Stores.withoutAnswers, hps]
    exact congrArg (Stores.mk now ids · content) hdatabase

theorem visit_eq_up_to_answers (h : SameUpToAnswers s s') {v : Visit}
    (hcaller : ∀ userId, Http.caller? v.request = some userId → userId ∉ s.database.admins) :
    (s.visit v).1 = (s'.visit v).1 ∧ SameUpToAnswers (s.visit v).2 (s'.visit v).2 := by
  have htwins := sameUpToAnswers_iff.mp h
  have hset : (answerVeil κ).Twins { s with now := v.now, ids := v.ids }
      { s' with now := v.now, ids := v.ids } :=
    ⟨rfl, rfl, htwins.tables, htwins.problems, htwins.content⟩
  obtain ⟨hresponse, htwins'⟩ := Veil.serve_eq hset
    fun userId huser => ⟨hcaller userId huser, fun _ _ => trivial⟩
  exact ⟨hresponse, sameUpToAnswers_iff.mpr htwins'⟩

/-- Whatever callers who are no administrators ask for, one after another, every response is the
    same whatever the right answers are, and the stores stay equal except for them. -/
theorem visits_eq_up_to_answers (h : SameUpToAnswers s s') {vs : List Visit}
    (hcallers : ∀ v ∈ vs, ∀ userId, Http.caller? v.request = some userId →
      userId ∉ s.database.admins) :
    List.Forall₂ (fun out out' => out.1 = out'.1 ∧ SameUpToAnswers out.2 out'.2)
      (s.visits vs) (s'.visits vs) := by
  induction vs generalizing s s' with
  | nil => exact List.Forall₂.nil
  | cons v rest ih =>
    have hstep := visit_eq_up_to_answers h (hcallers v List.mem_cons_self)
    refine List.Forall₂.cons hstep (ih hstep.2 fun w hw userId huser => ?_)
    -- Those who were no administrators before the request are none after it.
    have hadmins : (s.visit v).2.database.admins = s.database.admins :=
      Stores.admins_run { s with now := v.now, ids := v.ids } (Http.serve v.request)
    rw [hadmins]
    exact hcallers w (List.mem_cons_of_mem v hw) userId huser

end Visits

/-! ## A problem that is shown -/

/-- A problem with its right answers. -/
def answeredProblem (answer : List Int32) : Problem :=
  .ofNew (.ofNat 1) (.ofNat 2) ⟨"Sums", "What is 1 + 1?", 10, .mcq, answer⟩

/-- Stores with a contest that has started, a user who is registered for it, and the problem. -/
def answeredStores (answer : List Int32) : Stores Content.Memory where
  now := default
  ids := .initial
  database := { Database.empty with
    contests := [{ (default : Database.ContestRow) with id := .ofNat 1 }]
    registrations := [⟨.ofNat 1, .ofNat 7, default⟩]
    problems := [answeredProblem answer] }
  content := Content.Memory.empty.insert (answeredProblem answer).contentKey
    (Problem.document "What is 1 + 1?")

/-- The user asks for the problem, and then somebody asks for the contests. -/
def answeredVisits : List Visit :=
  [⟨default, .initial,
    { method := "GET"
      address := ⟨"/api/v1/contests/" ++ (Uuid.ofNat 1).text ++ "/problems/" ++
        (Uuid.ofNat 2).text, none⟩
      headers := [("x-user-id", (Uuid.ofNat 7).text)]
      body := "" }⟩,
   ⟨default, .initial,
    { method := "GET", address := ⟨"/api/v1/contests", none⟩, headers := [], body := "" }⟩]

/-- Nobody learns which of two answers is the right one. -/
theorem visits_eq_with_one_answer :
    answeredStores [1] ≠ answeredStores [2] ∧
      List.Forall₂ (fun out out' => out.1 = out'.1 ∧ SameUpToAnswers out.2 out'.2)
        ((answeredStores [1]).visits answeredVisits)
        ((answeredStores [2]).visits answeredVisits) := by
  have hproblem : (answeredProblem [1]).withoutAnswer = (answeredProblem [2]).withoutAnswer := rfl
  have hsame : SameUpToAnswers (answeredStores [1]) (answeredStores [2]) := by
    simp only [SameUpToAnswers, Stores.withoutAnswers, answeredStores, Database.withProblems,
      List.map_cons, List.map_nil, hproblem]
    rfl
  have houtsiders : ∀ v ∈ answeredVisits, ∀ userId, Http.caller? v.request = some userId →
      userId ∉ (answeredStores [1]).database.admins :=
    fun _ _ _ _ => List.not_mem_nil
  refine ⟨fun heq => ?_, visits_eq_up_to_answers hsame houtsiders⟩
  have hanswer : [[1]] = [[(2 : Int32)]] := congrArg (·.database.problems.map Problem.answer) heq
  exact absurd hanswer (by decide)

end ContestPlatform
