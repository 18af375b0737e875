import ContestPlatform.Proofs.ContentKeys
import ContestPlatform.Proofs.ContentMap
import ContestPlatform.Proofs.Demands
import ContestPlatform.Proofs.Veil

/-!
# The problems of a contest are secret until they may be seen

Nothing that a user asks for tells anything of the problems of a contest that has not started, or
that the user is not registered for: not which there are, nor any of their fields, nor their
statements.
-/

namespace ContestPlatform

/-- The rows of the problems of all contests but one. -/
def problemsBesides (contestId : Uuid) (ps : List Problem) : List Problem :=
  ps.filter fun p => p.contestId != contestId

section Rows

variable {db db' : Database} {contestId other : Uuid}

theorem problem?_eq_of_ne (hne : other ≠ contestId) (id : Uuid) :
    db.problem? other id =
      (problemsBesides contestId db.problems).find? (Database.isProblemOf other id) := by
  rw [problemsBesides, List.find?_filter]
  refine congrArg (db.problems.find? ·) (funext fun p => ?_)
  -- The test for another contest is implied by the one for the problem.
  cases hp : Database.isProblemOf other id p with
  | false => simp
  | true =>
    have hcontest := (Database.isProblemOf_eq_true.mp hp).1
    simp [hcontest, hne]

theorem overviewsOf_eq_of_ne (hne : other ≠ contestId) :
    db.overviewsOf other =
      (((problemsBesides contestId db.problems).filter (·.contestId == other)).mergeSort
        Database.namedEarlier).map Problem.overview := by
  rw [problemsBesides, List.filter_filter, Database.overviewsOf]
  -- A problem of the other contest is none of this one.
  have hfilter : (fun p : Problem => p.contestId == other && p.contestId != contestId) =
      fun p => p.contestId == other := by
    funext p
    by_cases hp : p.contestId = other
    · simp [hp, hne]
    · simp [hp]
  rw [hfilter]

end Rows

variable {κ : Type} [LawfulContentStore κ]

theorem LawfulContentStore.answer_congr {k k' : κ} {call : Content.Call}
    (hkey : texts k call.key = texts k' call.key) :
    (ContentStore.answer k call).1 = (ContentStore.answer k' call).1 ∧
      ∀ key, texts k key = texts k' key →
        texts (ContentStore.answer k call).2 key = texts (ContentStore.answer k' call).2 key := by
  rw [answer_eq, answer_eq, texts_answer, texts_answer]
  exact Content.Map.answer_congr hkey

/-- Content stores that keep the same outside of the folder of a contest. -/
def SameBeyond (contestId : Uuid) (k k' : κ) : Prop :=
  ∀ key, ¬ Problem.InFolder contestId key →
    LawfulContentStore.texts k key = LawfulContentStore.texts k' key

/-- A call outside of the folder is answered the same, and has the same effect outside of it. -/
theorem SameBeyond.answer {contestId : Uuid} {k k' : κ} (h : SameBeyond contestId k k')
    {call : Content.Call} (hout : ¬ Problem.InFolder contestId call.key) :
    (ContentStore.answer k call).1 = (ContentStore.answer k' call).1 ∧
      SameBeyond contestId (ContentStore.answer k call).2 (ContentStore.answer k' call).2 := by
  obtain ⟨hanswer, hkeep⟩ := LawfulContentStore.answer_congr (h call.key hout)
  exact ⟨hanswer, fun key hkey => hkeep key (h key hkey)⟩

/-- The statement of a problem of another contest is outside of the folder. -/
theorem not_inFolder_contentKey {db : Database} {contestId other id : Uuid} {p : Problem}
    (hkeyed : db.Keyed) (hne : other ≠ contestId) (hfind : db.problem? other id = some p) :
    ¬ Problem.InFolder contestId p.contentKey := by
  obtain ⟨hp, rfl, -⟩ := Database.mem_of_problem? hfind
  rw [hkeyed p hp, Problem.inFolder_keyOf]
  exact Ne.symm hne

/-- The veil over the rows of the problems of a contest and their statements. -/
def problemVeil (κ : Type) [LawfulContentStore κ] (contestId : Uuid) : Veil κ where
  problems ps ps' := problemsBesides contestId ps = problemsBesides contestId ps' ∧
    ∀ p ∈ ps, p.contentKey = Problem.keyOf p.contestId p.id
  content := SameBeyond contestId
  Visible other := other ≠ contestId
  find_eq hps hother id := by
    rw [problem?_eq_of_ne hother, problem?_eq_of_ne hother, hps.1]
  overviews_eq hps hother := by
    rw [overviewsOf_eq_of_ne hother, overviewsOf_eq_of_ne hother, hps.1]
  get_eq hps hk hother hfind := hk.answer (not_inFolder_contentKey hps.2 hother hfind)
  code_eq hk hcall := hk.answer (hcall ▸ Submission.not_inFolder_codeKey contestId _)

/-- Stores that differ only in the rows of the problems of a contest and in their statements. -/
structure DifferInProblemsOf (contestId : Uuid) (s s' : Stores κ) : Prop where
  now : s.now = s'.now
  ids : s.ids = s'.ids
  tables : s.database.withProblems [] = s'.database.withProblems []
  problems : problemsBesides contestId s.database.problems =
    problemsBesides contestId s'.database.problems
  content : SameBeyond contestId s.content s'.content

/-- A user may not see the problems of a contest: there is no registration, or it is too early. -/
def MayNotSee (s : Stores κ) (contestId userId : Uuid) : Prop :=
  s.database.isRegistered contestId userId = false ∨
    ∀ contest, s.database.contest? contestId = some contest → s.now < contest.start

theorem not_lets_of_mayNotSee {s : Stores κ} {contestId userId : Uuid}
    (h : MayNotSee s contestId userId) : ¬ Veil.Lets s contestId userId := by
  rintro ⟨contest, hcontest⟩
  rw [Contest.perform_checkVisibility] at hcontest
  cases hfind : s.database.contest? contestId with
  | none =>
    rw [hfind] at hcontest
    exact nomatch hcontest
  | some found =>
    rw [hfind] at hcontest
    dsimp only at hcontest
    -- Only a registered user gets through, and only once the contest has started.
    split_ifs at hcontest with hregistered hupcoming
    rcases h with hunregistered | hearly
    · rw [hunregistered] at hregistered
      exact nomatch hregistered
    · exact hupcoming (if_pos (hearly found hfind))

/-- What is hidden from a user does not show in the response to any request: whatever the problems
    of the contest are, the response is the same. -/
theorem response_eq_of_differInProblemsOf {contestId userId : Uuid} {s s' : Stores κ}
    (hdiffer : DifferInProblemsOf contestId s s') (hkeyed : s.database.Keyed)
    (hadmin : userId ∉ s.database.admins) (hhidden : MayNotSee s contestId userId)
    {r : Http.Request} (hcaller : Http.caller? r = some userId) :
    (s.run (Http.serve r)).1 = (s'.run (Http.serve r)).1 := by
  have htwins : (problemVeil κ contestId).Twins s s' :=
    ⟨hdiffer.now, hdiffer.ids, hdiffer.tables, ⟨hdiffer.problems, hkeyed⟩, hdiffer.content⟩
  -- The only contest behind the veil is one that the platform does not let the caller see.
  refine (Veil.serve_eq htwins fun user huser => ?_).1
  obtain rfl := Option.some.inj (hcaller.symm.trans huser)
  refine ⟨hadmin, fun other hlets => ?_⟩
  rintro rfl
  exact not_lets_of_mayNotSee hhidden hlets

/-! ## A contest that nobody is registered for -/

/-- A problem of the contest. -/
def secretProblem : Problem :=
  .ofNew (.ofNat 1) (.ofNat 2) ⟨"Sums", "Add two numbers.", 10, .code, []⟩

/-- Stores with a contest and no registrations, and problems and contents that are given. -/
def unregisteredStores (problems : List Problem) (content : Content.Memory) :
    Stores Content.Memory where
  now := default
  ids := .initial
  database := { Database.empty with
    contests := [{ (default : Database.ContestRow) with id := .ofNat 1 }]
    problems := problems }
  content := content

/-- A user asks for the problems of the contest. -/
def problemsRequest : Http.Request where
  method := "GET"
  address := ⟨"/api/v1/contests/" ++ (Uuid.ofNat 1).text ++ "/problems", none⟩
  headers := [("x-user-id", (Uuid.ofNat 7).text)]
  body := ""

/-- A user who is not registered cannot find out whether the contest has a problem. -/
theorem response_eq_without_registration :
    let s := unregisteredStores [secretProblem]
      (Content.Memory.empty.insert secretProblem.contentKey (Problem.document "Add two numbers."))
    let s' := unregisteredStores [] .empty
    DifferInProblemsOf (.ofNat 1) s s' ∧ s.database.problems ≠ s'.database.problems ∧
      (s.run (Http.serve problemsRequest)).1 = (s'.run (Http.serve problemsRequest)).1 := by
  intro s s'
  have hcontent : SameBeyond (.ofNat 1) s.content s'.content := by
    intro key hout
    -- The only text that the stores do not share is in the folder.
    have hne : key ≠ secretProblem.contentKey := by
      rintro rfl
      exact hout (Problem.inFolder_keyOf.mpr rfl)
    exact (Content.Memory.get?_insert _ _ _ key).trans (if_neg hne)
  have hdiffer : DifferInProblemsOf (.ofNat 1) s s' := ⟨rfl, rfl, rfl, rfl, hcontent⟩
  have hkeyed : s.database.Keyed := by
    intro p hp
    obtain rfl := List.mem_singleton.mp hp
    rfl
  have hcaller : Http.caller? problemsRequest = some (.ofNat 7) := rfl
  have hhidden : MayNotSee s (.ofNat 1) (.ofNat 7) := Or.inl rfl
  refine ⟨hdiffer, List.cons_ne_nil _ _, ?_⟩
  exact response_eq_of_differInProblemsOf hdiffer hkeyed List.not_mem_nil hhidden hcaller

end ContestPlatform
