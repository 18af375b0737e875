import ContestPlatform.Database.Call
import Mathlib.Logic.Basic
import Mathlib.Tactic.SplitIfs

/-!
# The rows of problems

What the calls of the database do to the rows of problems. Only an insertion adds a row, and only a
removal takes one away. A replacement keeps where every row belongs: its contest, its identifier and
the key of its statement.
-/

namespace ContestPlatform

/-- Where a problem belongs: its contest, its identifier and the key of its statement. -/
def Problem.place (p : Problem) : Uuid × Uuid × String :=
  (p.contestId, p.id, p.contentKey)

namespace Problem

@[simp] theorem place_apply (p : Problem) (change : ProblemChange) :
    (p.apply change).place = p.place := rfl

end Problem

namespace Database

/-- There is a row of a problem with an identifier in a contest. -/
def HasProblemOf (db : Database) (contestId id : Uuid) : Prop :=
  ∃ p ∈ db.problems, p.contestId = contestId ∧ p.id = id

/-- Every row points at the statement of its own problem. -/
def Keyed (db : Database) : Prop :=
  ∀ p ∈ db.problems, p.contentKey = Problem.keyOf p.contestId p.id

theorem isProblemOf_eq_true {contestId id : Uuid} {p : Problem} :
    isProblemOf contestId id p = true ↔ p.contestId = contestId ∧ p.id = id := by
  simp only [isProblemOf, Bool.and_eq_true, beq_iff_eq]
  exact and_comm

/-- The test that replacements and removals make tells whether there is a row. -/
theorem any_isProblemOf {db : Database} {contestId id : Uuid} :
    db.problems.any (isProblemOf contestId id) = true ↔ db.HasProblemOf contestId id := by
  simp only [List.any_eq_true, isProblemOf_eq_true, HasProblemOf]

/-- A problem that is found is a row of its contest with its identifier. -/
theorem mem_of_problem? {db : Database} {contestId id : Uuid} {p : Problem}
    (h : db.problem? contestId id = some p) :
    p ∈ db.problems ∧ p.contestId = contestId ∧ p.id = id :=
  ⟨List.mem_of_find?_eq_some h, isProblemOf_eq_true.mp (List.find?_some h)⟩

theorem hasProblem_of_problem? {db : Database} {contestId id : Uuid} {p : Problem}
    (h : db.problem? contestId id = some p) : db.hasProblem id = true := by
  obtain ⟨hp, -, hid⟩ := mem_of_problem? h
  exact List.any_eq_true.mpr ⟨p, hp, beq_iff_eq.mpr hid⟩

theorem exists_problem? {db : Database} {contestId id : Uuid}
    (h : db.HasProblemOf contestId id) : ∃ p, db.problem? contestId id = some p := by
  rw [← any_isProblemOf, ← List.isSome_find?] at h
  exact Option.isSome_iff_exists.mp h

/-! ## Calls that write rows of problems -/

/-- An insertion that succeeds adds its row. -/
theorem insertProblem_ok {db : Database} {p : Problem}
    (h : (db.answer (.insertProblem p)).1 = .ok ()) :
    (db.answer (.insertProblem p)).2.problems = db.problems ++ [p] := by
  unfold answer insertProblem at h ⊢
  dsimp only at h ⊢
  split_ifs at h ⊢
  · exact nomatch h
  · exact nomatch h
  · exact nomatch h
  · rfl

theorem isStorableProblem_of_insertProblem {db : Database} {p : Problem}
    (h : (db.answer (.insertProblem p)).1 = .ok ()) : isStorableProblem p = true := by
  unfold answer insertProblem at h
  dsimp only at h
  cases hname : isStorableProblem p with
  | true => rfl
  | false =>
    rw [hname] at h
    exact nomatch h

/-- A replacement that succeeds tells whether there is a row, and keeps where the rows belong. -/
theorem replaceProblem_ok {db : Database} {p : Problem} {found : Bool}
    (h : (db.answer (.replaceProblem p)).1 = .ok found) :
    (found = true ↔ db.HasProblemOf p.contestId p.id) ∧
      (db.answer (.replaceProblem p)).2.problems.map Problem.place =
        db.problems.map Problem.place := by
  unfold answer replaceProblem at h ⊢
  dsimp only at h ⊢
  split_ifs at h ⊢ with hname
  · exact nomatch h
  · cases h
    refine ⟨any_isProblemOf, ?_⟩
    -- The row that is replaced keeps its key, and has the contest and the identifier asked for.
    rw [changedWith, List.map_map]
    refine List.map_congr_left fun r _ => ?_
    simp only [Function.comp_apply]
    split_ifs with hrow
    · obtain ⟨hcontest, hid⟩ := isProblemOf_eq_true.mp hrow
      simp only [Problem.place, hcontest, hid]
    · rfl

theorem replaceProblem_error {db : Database} {p : Problem} {fault : Fault}
    (h : (db.answer (.replaceProblem p)).1 = .error fault) : fault = .database .unstorable := by
  unfold answer replaceProblem at h
  dsimp only at h
  split_ifs at h
  · cases h
    rfl
  · exact nomatch h

/-- A row that takes the place of another one is a row of the same problem. -/
theorem isProblemOf_replaced (p r : Problem) : isProblemOf p.contestId p.id
    (if isProblemOf p.contestId p.id r then { p with contentKey := r.contentKey } else r) =
      isProblemOf p.contestId p.id r := by
  split
  case isTrue hr => exact (isProblemOf_eq_true.mpr ⟨rfl, rfl⟩).trans hr.symm
  case isFalse => rfl

/-- A removal leaves the rows of all other problems, and tells whether there was a row. -/
theorem removeProblem_ok {db : Database} {contestId id : Uuid} {found : Bool}
    (h : (db.answer (.removeProblem contestId id)).1 = .ok found) :
    (db.answer (.removeProblem contestId id)).2.problems =
      if found then db.problems.filter fun p => !isProblemOf contestId id p else db.problems := by
  unfold answer removeProblem at h ⊢
  dsimp only at h ⊢
  split_ifs at h ⊢ with hrow hfound hfound
  · rfl
  · cases h
    exact absurd rfl hfound
  · rw [hfound] at h
    exact nomatch h
  · rfl

theorem problems_removeContest (db : Database) (id : Uuid) :
    (db.answer (.removeContest id)).2.problems = db.problems := by
  unfold answer removeContest
  dsimp only
  split_ifs
  · rfl
  · rfl
  · rfl

/-- After a removal there is no row with the identifier in the contest; all others are still
    there. -/
theorem hasProblemOf_filter {db db' : Database} {contestId id : Uuid}
    (h : db'.problems = db.problems.filter fun p => !isProblemOf contestId id p) {c i : Uuid} :
    db'.HasProblemOf c i ↔ db.HasProblemOf c i ∧ ¬ (c = contestId ∧ i = id) := by
  simp only [HasProblemOf, h, List.mem_filter, Bool.not_eq_true', ← Bool.not_eq_true,
    isProblemOf_eq_true]
  constructor
  · rintro ⟨p, ⟨hp, hne⟩, rfl, rfl⟩
    exact ⟨⟨p, hp, rfl, rfl⟩, hne⟩
  · rintro ⟨⟨p, hp, rfl, rfl⟩, hne⟩
    exact ⟨p, ⟨hp, hne⟩, rfl, rfl⟩

/-- Which problems have rows is read off where the rows belong. -/
theorem hasProblemOf_congr {db db' : Database}
    (h : db'.problems.map Problem.place = db.problems.map Problem.place) {c i : Uuid} :
    db'.HasProblemOf c i ↔ db.HasProblemOf c i := by
  -- Stated of the places alone, both sides speak of the same list.
  have hplace : ∀ d : Database, d.HasProblemOf c i ↔
      ∃ q ∈ d.problems.map Problem.place, q.1 = c ∧ q.2.1 = i := by
    intro d
    simp only [HasProblemOf, List.mem_map, exists_exists_and_eq_and, Problem.place]
  rw [hplace, hplace, h]

theorem keyed_congr {db db' : Database}
    (h : db'.problems.map Problem.place = db.problems.map Problem.place) :
    db'.Keyed ↔ db.Keyed := by
  have hplace : ∀ d : Database, d.Keyed ↔
      ∀ q ∈ d.problems.map Problem.place, q.2.2 = Problem.keyOf q.1 q.2.1 := by
    intro d
    simp only [Keyed, List.forall_mem_map, Problem.place]
  rw [hplace, hplace, h]

/-! ## Calls that overlook problems -/

/-- The tables with other rows of problems. -/
def withProblems (db : Database) (ps : List Problem) : Database :=
  { db with problems := ps }

/-- The calls whose answers and effects have nothing to do with the rows of problems. -/
def Call.overlooksProblems : Call → Bool
  | .insertProblem _ | .findProblem .. | .replaceProblem _ | .removeProblem .. | .overviews _
  | .insertSubmission _ | .removeContest _ => false
  | .insertContest _ | .findContest _ | .contestExists _ | .replaceContest _ | .contestPage ..
  | .insertRegistration .. | .removeRegistration .. | .isRegistered .. | .registrations _
  | .findSubmission _ | .submissionStatus _ | .testResults _ | .submissionPage ..
  | .patchRanking .. | .isAdmin _ | .findProfile _ => true

private theorem changed_withProblems (db : Database) (ps : List Problem)
    (result : Except Fault Database) :
    (db.withProblems ps).changed (result.map (·.withProblems ps)) =
      ((db.changed result).1, (db.changed result).2.withProblems ps) := by
  cases result <;> rfl

private theorem changedWith_withProblems {α : Type} (db : Database) (ps : List Problem)
    (result : Except Fault (α × Database)) :
    (db.withProblems ps).changedWith (result.map (Prod.map id (·.withProblems ps))) =
      ((db.changedWith result).1, (db.changedWith result).2.withProblems ps) := by
  cases result <;> rfl

private theorem insertContest_withProblems (db : Database) (ps : List Problem) (c : Contest) :
    (db.withProblems ps).insertContest c = (db.insertContest c).map (·.withProblems ps) := by
  unfold insertContest
  cases ContestRow.ofContest? c with
  | none => rfl
  | some row =>
    have hcontest : (db.withProblems ps).hasContest c.id = db.hasContest c.id := rfl
    dsimp only
    rw [hcontest]
    cases db.hasContest c.id <;> rfl

private theorem replaceContest_withProblems (db : Database) (ps : List Problem) (c : Contest) :
    (db.withProblems ps).replaceContest c =
      (db.replaceContest c).map (Prod.map id (·.withProblems ps)) := by
  unfold replaceContest
  cases ContestRow.ofContest? c <;> rfl

private theorem insertRegistration_withProblems (db : Database) (ps : List Problem)
    (contestId userId : Uuid) (registeredAt : Instant) :
    (db.withProblems ps).insertRegistration contestId userId registeredAt =
      (db.insertRegistration contestId userId registeredAt).map
        (Prod.map id (·.withProblems ps)) := by
  unfold insertRegistration
  cases registeredAt.stamp? with
  | none => rfl
  | some stamp =>
    have hregistered : (db.withProblems ps).isRegistered contestId userId =
      db.isRegistered contestId userId := rfl
    have hknown :
        ((db.withProblems ps).hasContest contestId && (db.withProblems ps).hasUser userId) =
          (db.hasContest contestId && db.hasUser userId) := rfl
    dsimp only
    rw [hregistered, hknown]
    cases db.isRegistered contestId userId with
    | true => rfl
    | false => cases db.hasContest contestId && db.hasUser userId <;> rfl

/-- A call that overlooks problems is answered the same whatever problems there are. -/
theorem answer_withProblems {call : Call} (h : call.overlooksProblems = true) (db : Database)
    (ps : List Problem) :
    (db.withProblems ps).answer call =
      ((db.answer call).1, (db.answer call).2.withProblems ps) := by
  cases call with
  | insertContest c =>
    rw [answer, insertContest_withProblems]
    exact changed_withProblems db ps _
  | replaceContest c =>
    rw [answer, replaceContest_withProblems]
    exact changedWith_withProblems db ps _
  | insertRegistration contestId userId registeredAt =>
    rw [answer, insertRegistration_withProblems]
    exact changedWith_withProblems db ps _
  -- These calls look at problems or change them.
  | insertProblem | findProblem | replaceProblem | removeProblem | overviews | insertSubmission
  | removeContest => exact nomatch h
  -- All others read other tables, or write them without a test.
  | _ => rfl

theorem problems_answer {call : Call} (h : call.overlooksProblems = true) (db : Database) :
    (db.answer call).2.problems = db.problems := by
  -- Its own problems are put in their own place.
  have hself := congrArg (·.2.problems) (answer_withProblems h db db.problems)
  exact hself

/-- A submission only has to know whether there is its problem. -/
theorem insertSubmission_withProblems {db : Database} {ps : List Problem} {s : Submission}
    (h : (db.withProblems ps).hasProblem s.problemId = db.hasProblem s.problemId) :
    (db.withProblems ps).answer (.insertSubmission s) =
      ((db.answer (.insertSubmission s)).1,
        (db.answer (.insertSubmission s)).2.withProblems ps) := by
  have hinsert : (db.withProblems ps).insertSubmission s =
      (db.insertSubmission s).map (·.withProblems ps) := by
    unfold insertSubmission
    cases SubmissionRow.ofSubmission? s with
    | none => rfl
    | some row =>
      have hduplicate : (db.withProblems ps).hasSubmission s.id = db.hasSubmission s.id := rfl
      have hknown : ((db.withProblems ps).hasUser s.userId &&
          (db.withProblems ps).hasContest s.contestId &&
          (db.withProblems ps).hasProblem s.problemId) =
          (db.hasUser s.userId && db.hasContest s.contestId && db.hasProblem s.problemId) := by
        rw [h]
        rfl
      -- The tests agree, so each of their outcomes is dealt with at once.
      dsimp only
      rw [hduplicate, hknown]
      cases db.hasSubmission s.id with
      | true => rfl
      | false =>
        cases db.hasUser s.userId && db.hasContest s.contestId && db.hasProblem s.problemId <;> rfl
  rw [answer, hinsert]
  exact changed_withProblems db ps _

theorem problems_insertSubmission (db : Database) (s : Submission) :
    (db.answer (.insertSubmission s)).2.problems = db.problems := by
  have hknown : (db.withProblems db.problems).hasProblem s.problemId =
    db.hasProblem s.problemId := rfl
  have hself := congrArg (·.2.problems) (insertSubmission_withProblems hknown)
  exact hself

end Database

end ContestPlatform
