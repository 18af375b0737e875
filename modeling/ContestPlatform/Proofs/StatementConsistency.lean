import ContestPlatform.Proofs.Performing
import ContestPlatform.Proofs.StatementOutlines

/-!
# Rows and statements

No transaction covers the database and the content store. Still, whatever writers of problems run at
the same time, wherever their calls fail and wherever they are cancelled, every row points at a
statement that can be read, so every problem that is listed can be shown. And if calls do not fail,
no statement stays behind without a row, except those whose rows the database rejected.
-/

namespace ContestPlatform

open Interleaving

/-! ## Reading alone -/

namespace Problem

variable {κ : Type} [LawfulContentStore κ]

theorem perform_list (s : Stores κ) (contestId : Uuid) :
    (s.perform (list contestId)).1 =
      if s.database.hasContest contestId then .ok (s.database.overviewsOf contestId)
      else .error (Contest.missing contestId) := by
  rw [list, Stores.perform_bind, Stores.perform_database]
  simp only [Database.answer]
  cases s.database.hasContest contestId with
  | true => rfl
  | false => rfl

theorem perform_get {s : Stores κ} {contestId id : Uuid} {p : Problem} {text : String}
    {document : ProblemDocument} (hfind : s.database.problem? contestId id = some p)
    (hkey : Content.isKey p.contentKey = true)
    (htext : LawfulContentStore.texts s.content p.contentKey = some text)
    (hdocument : ProblemDocument.ofText? text = some document) :
    (s.perform (get contestId id)).1 = .ok (p.statement document.description) := by
  -- The row is found, its document is kept, and the document can be read.
  have hget : (ContentStore.answer s.content (.get p.contentKey)).1 = .ok text := by
    rw [LawfulContentStore.answer_eq, Content.Map.answer_get hkey htext]
  rw [get, Stores.perform_bind, find, Stores.perform_bind, Stores.perform_database]
  simp only [Database.answer, hfind, Stores.perform_found_some]
  rw [Stores.perform_bind, Stores.perform_content, hget]
  simp only [Except.mapError, hdocument, Stores.perform_pure]

theorem hasProblemOf_of_mem_list {s : Stores κ} {contestId : Uuid}
    {overviews : List ProblemOverview} (h : (s.perform (list contestId)).1 = .ok overviews)
    {o : ProblemOverview} (ho : o ∈ overviews) : s.database.HasProblemOf contestId o.id := by
  rw [perform_list] at h
  split_ifs at h
  cases h
  rw [Database.overviewsOf, List.mem_map] at ho
  obtain ⟨p, hp, rfl⟩ := ho
  rw [List.mem_mergeSort, List.mem_filter, beq_iff_eq] at hp
  exact ⟨p, hp.1, hp.2, rfl⟩

end Problem

namespace Statements

/-! ## A contest without problems -/

/-- The contest of the sample runs. -/
def sampleContest : Uuid := .ofNat 1

/-- The identifier that the sample runs draw. -/
def sampleId : Uuid := .ofNat 2

/-- The problem that the sample runs create. -/
def sampleNew : NewProblem :=
  ⟨"Sums", "Add two numbers.", 10, .code, []⟩

/-- Stores with one contest and nothing else. -/
def sampleStores : Stores Content.Memory where
  now := default
  ids := .initial
  database := { Database.empty with
    contests := [{ (default : Database.ContestRow) with id := sampleContest }] }
  content := .empty

variable {κ : Type} [LawfulContentStore κ]

/-! ## Whatever fails -/

/-- Any call may fail, and any operation may be cancelled. -/
def unreliable : Regime where
  admits := Writes
  mayFail _ := True
  mayCancel := True

/-- Every row points at a document, and every problem that is listed is shown. -/
theorem rows_have_statements {stores : Stores κ} (hrows : stores.database.problems = [])
    (htexts : ∀ key, LawfulContentStore.texts stores.content key = none) {P : Pool κ}
    (hreach : Reachable unreliable (Pool.initial stores) P) :
    (∀ p ∈ P.stores.database.problems, ∃ text document,
      LawfulContentStore.texts P.stores.content p.contentKey = some text ∧
        ProblemDocument.ofText? text = some document) ∧
    ∀ contestId overviews, (P.stores.perform (Problem.list contestId)).1 = .ok overviews →
      ∀ o ∈ overviews, ∃ statement,
        (P.stores.perform (Problem.get contestId o.id)).1 = .ok statement := by
  have hsound := Protocol.sound (R := protocol κ) (fun i operation => walks_writes)
    (inv_start hrows htexts) hreach
  have hinv : Inv P.toShared := hsound.inv
  have hstated : ∀ p ∈ P.stores.database.problems, ∃ text document,
      LawfulContentStore.texts P.stores.content p.contentKey = some text ∧
        ProblemDocument.ofText? text = some document := by
    intro p hp
    obtain ⟨text, htext, document, hdocument⟩ := hinv.stated ⟨p, hp, rfl, rfl⟩
    exact ⟨text, document, hinv.keyed p hp ▸ htext, hdocument⟩
  refine ⟨hstated, fun contestId overviews hlist o ho => ?_⟩
  -- What is listed has a row, which is found, and its statement is there.
  obtain ⟨p, hfind⟩ := Database.exists_problem? (Problem.hasProblemOf_of_mem_list hlist ho)
  have hp := (Database.mem_of_problem? hfind).1
  obtain ⟨text, document, htext, hdocument⟩ := hstated p hp
  have hkey : Content.isKey p.contentKey = true := by
    rw [hinv.keyed p hp, Problem.isKey_keyOf]
  exact ⟨_, Problem.perform_get hfind hkey htext hdocument⟩

/-- A problem can be created, whatever may fail. -/
private theorem reachable_created :
    ∃ P, Reachable unreliable (Pool.initial sampleStores) P ∧ P.stores.database =
      { sampleStores.database with
        problems := [.ofNew sampleContest sampleId sampleNew] } := by
  refine ⟨_, .tail (.tail (.tail (.tail (.tail .refl
    (.begin_ _ (.createProblem sampleContest sampleNew) trivial))
    (.call (i := 0) _ rfl (.database _ fun _ => trivial)))
    (.call (i := 0) _ rfl (.fresh sampleId ?_)))
    (.call (i := 0) _ rfl (.content _ fun _ => trivial)))
    (.call (i := 0) _ rfl (.database _ fun _ => trivial)), rfl⟩
  -- The only call before the identifier is drawn looks for the contest.
  rintro task ⟨e, he, -, h⟩
  rcases he with _ | ⟨_, ⟨⟩⟩
  exact nomatch h

/-- A problem that was created is shown. -/
theorem shown_after_creation :
    ∃ P : Pool Content.Memory, Reachable unreliable (Pool.initial sampleStores) P ∧
      P.stores.database.problems = [.ofNew sampleContest sampleId sampleNew] ∧
      ∃ statement, (P.stores.perform (Problem.get sampleContest sampleId)).1 = .ok statement := by
  obtain ⟨P, hreach, hdatabase⟩ := reachable_created
  have hcontest : P.stores.database.hasContest sampleContest = true := by
    rw [hdatabase]
    rfl
  have hlist : (P.stores.perform (Problem.list sampleContest)).1 =
      .ok [(Problem.ofNew sampleContest sampleId sampleNew).overview] := by
    rw [Problem.perform_list, if_pos hcontest, hdatabase]
    simp [Database.overviewsOf, Problem.ofNew]
  have hshown := (rows_have_statements rfl (fun _ => rfl) hreach).2 _ _ hlist
    (Problem.ofNew sampleContest sampleId sampleNew).overview List.mem_cons_self
  have hrows := congrArg Database.problems hdatabase
  exact ⟨P, hreach, hrows, hshown⟩

/-! ## If calls do not fail -/

/-- No call fails, except that the database may reject a new problem, and nothing is cancelled. -/
def reliable : Regime where
  admits := Writes
  mayFail call := ∃ p, call = .database (.insertProblem p)
  mayCancel := False

/-- When no operation is in progress, no task has a document to look after. -/
private theorem debt_eq_none_of_isOver {P : Pool κ} (hover : ∀ t ∈ P.tasks, t.IsOver)
    (hsound : (protocol κ).Sound reliable (fun i _ s => OnlyInsertsFail reliable → Idle i s) P)
    (i : Nat) : debt P.log i = none := by
  rcases Nat.lt_or_ge i P.tasks.length with hi | hi
  · have htask : P.tasks[i]? = some P.tasks[i] := List.getElem?_eq_getElem hi
    obtain ⟨result, -, hidle⟩ :=
      hsound.known_of_isOver (fun h => h) htask (hover _ (List.getElem_mem hi))
    exact hidle fun _ hmay => hmay
  · -- A task that was not begun has made no call.
    refine debt_eq_none fun e he htask => ?_
    have hlt := hsound.numbered e he
    omega

/-- When no operation is in progress, what is stored under the key of a problem has a row with that
    key in the contest, or was written for a row that the database rejected. -/
theorem statements_have_rows {stores : Stores κ} (hrows : stores.database.problems = [])
    (htexts : ∀ key, LawfulContentStore.texts stores.content key = none) {P : Pool κ}
    (hreach : Reachable reliable (Pool.initial stores) P) (hover : ∀ t ∈ P.tasks, t.IsOver)
    {contestId id : Uuid} {text : String}
    (htext : LawfulContentStore.texts P.stores.content (Problem.keyOf contestId id) = some text) :
    (∃ p ∈ P.stores.database.problems, p.contestId = contestId ∧ p.id = id ∧
      p.contentKey = Problem.keyOf contestId id) ∨ Rejected P.log contestId id text := by
  have hsound := Protocol.sound (R := protocol κ) (fun i operation => walks_writes)
    (inv_start hrows htexts) hreach
  have hinv : Inv P.toShared := hsound.inv
  rcases hinv.covered htext with ⟨p, hp, rfl, rfl⟩ | ⟨i, hdebt⟩ | hrejected
  · exact Or.inl ⟨p, hp, rfl, rfl, hinv.keyed p hp⟩
  · rw [debt_eq_none_of_isOver hover hsound i] at hdebt
    exact nomatch hdebt
  · exact Or.inr hrejected

/-- A contest can be deleted while a problem is created in it. The problem gets a document, and its
    row is rejected. -/
private theorem reachable_rejected :
    ∃ P, Reachable reliable (Pool.initial sampleStores) P ∧ (∀ t ∈ P.tasks, t.IsOver) ∧
      P.stores.database.problems = [] ∧
      LawfulContentStore.texts P.stores.content (Problem.keyOf sampleContest sampleId) =
        some (Problem.document sampleNew.description) := by
  refine ⟨_, .tail (.tail (.tail (.tail (.tail (.tail (.tail .refl
    (.begin_ _ (.createProblem sampleContest sampleNew) trivial))
    (.begin_ _ (.deleteContest sampleContest) trivial))
    (.call (i := 0) _ rfl (.database _ ?_)))
    (.call (i := 0) _ rfl (.fresh sampleId ?_)))
    (.call (i := 0) _ rfl (.content _ ?_)))
    -- The contest has no problems yet, so it can be deleted.
    (.call (i := 1) _ rfl (.database _ ?_)))
    (.call (i := 0) _ rfl (.database _ fun _ => ⟨_, rfl⟩)), ?_, rfl, rfl⟩
  · rintro ⟨fault, h, -⟩
    exact nomatch h
  · rintro task ⟨e, he, -, h⟩
    rcases he with _ | ⟨_, ⟨⟩⟩
    exact nomatch h
  · rintro ⟨fault, h⟩
    exact nomatch h
  · rintro ⟨fault, h, -⟩
    exact nomatch h
  · rintro t (_ | ⟨_, (_ | ⟨_, ⟨⟩⟩)⟩)
    · rintro _ ⟨⟩
      exact ⟨_, rfl⟩
    · rintro _ ⟨⟩
      exact ⟨_, rfl⟩

/-- The document that stays behind was written for a row that was rejected. -/
theorem rejected_after_deletion :
    ∃ P : Pool Content.Memory, Reachable reliable (Pool.initial sampleStores) P ∧
      (∀ t ∈ P.tasks, t.IsOver) ∧
      Rejected P.log sampleContest sampleId (Problem.document sampleNew.description) := by
  obtain ⟨P, hreach, hover, hrows, htext⟩ := reachable_rejected
  refine ⟨P, hreach, hover, ?_⟩
  rcases statements_have_rows rfl (fun _ => rfl) hreach hover htext with ⟨p, hp, -⟩ | hrejected
  · rw [hrows] at hp
    exact absurd hp List.not_mem_nil
  · exact hrejected

end Statements

end ContestPlatform
