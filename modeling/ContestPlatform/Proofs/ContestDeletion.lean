import ContestPlatform.Proofs.Performing
import ContestPlatform.Proofs.UniqueKeys

/-!
# What the deletion of a contest takes along

A contest that has problems is not deleted. With a contest that has none go its registrations and its
rankings. The tables would let its submissions go as well, and their results, but there are none: a
submission names a problem of its contest, and the contest has no problems. So whatever a contestant
has handed in is only ever deleted with its problem.
-/

namespace ContestPlatform

open Interleaving

namespace Database

/-- The tables without a contest, the registrations for it and the rankings in it. -/
def withoutContest (db : Database) (id : Uuid) : Database :=
  { db with
    contests := db.contests.filter (·.id != id)
    registrations := db.registrations.filter (·.contestId != id)
    rankings := db.rankings.filter (·.contestId != id) }

variable {db : Database} {id : Uuid}

/-- To drop submissions of which there are none changes nothing. -/
theorem dropSubmissions_of_none {p : SubmissionRow → Bool} (h : ∀ s ∈ db.submissions, p s = false) :
    db.dropSubmissions p = db := by
  have hgone : db.submissions.filter p = [] := by
    rw [List.filter_eq_nil_iff]
    intro s hs
    rw [h s hs]
    exact Bool.false_ne_true
  have hkept : (db.submissions.filter fun s => !p s) = db.submissions := by
    rw [List.filter_eq_self]
    intro s hs
    rw [h s hs]
    rfl
  simp [dropSubmissions, hgone, hkept]

/-- In a contest without problems nothing has been handed in. -/
theorem Consistent.no_submission (h : db.Consistent)
    (hempty : db.problems.any (·.contestId == id) = false) :
    ∀ s ∈ db.submissions, (s.contestId == id) = false := by
  intro s hs
  obtain ⟨p, hp, hcontest, -⟩ := (h.submissions s hs).1
  rw [← hcontest]
  exact Bool.eq_false_iff.mpr (List.any_eq_false.mp hempty p hp)

/-- A contest has one row. -/
theorem Constrained.exists_only_contest (h : db.Constrained) (hcontest : db.hasContest id = true) :
    ∃ row, db.contests.filter (·.id == id) = [row] := by
  obtain ⟨row, hrow, hid⟩ := List.any_eq_true.mp hcontest
  refine ⟨row, ?_⟩
  rw [← h.contests.filter_eq_singleton hrow, beq_iff_eq.mp hid]

/-- What the removal of a contest is answered, and what it does. -/
theorem Consistent.answer_removeContest (h : db.Consistent) (id : Uuid) :
    db.answer (.removeContest id) =
      if db.hasContest id = false then (.ok false, db)
      else if db.problems.any (·.contestId == id) then (.error (.contestHasProblems id), db)
      else (.ok true, db.withoutContest id) := by
  cases hcontest : db.hasContest id with
  | false => simp [answer, Database.removeContest, hcontest, changedWith]
  | true =>
    cases hused : db.problems.any (·.contestId == id) with
    | true => simp [answer, Database.removeContest, hcontest, hused, changedWith]
    | false =>
      have hsubmissions := dropSubmissions_of_none (h.no_submission hused)
      simp [answer, Database.removeContest, hcontest, hused, hsubmissions, changedWith, withoutContest]

end Database

section Deletion

variable {κ : Type} [ContentStore κ] {s : Stores κ} {contestId : Uuid}

/-- A contest is deleted if it exists and has no problems, and otherwise nothing is done. -/
theorem Contest.perform_delete (h : s.database.Consistent) :
    s.perform (delete contestId) =
      if s.database.hasContest contestId = false then (.error (missing contestId), s)
      else if s.database.problems.any (·.contestId == contestId) then
        (.error (.contestHasProblems contestId), s)
      else (.ok (), { s with database := s.database.withoutContest contestId }) := by
  have hanswer := h.answer_removeContest contestId
  split_ifs at hanswer ⊢ with hcontest hused
  · rw [delete, Stores.perform_bind_of_ok (s.perform_of_answer hanswer)]
    rfl
  · exact Stores.perform_bind_of_error (s.perform_of_answer hanswer)
  · rw [delete, Stores.perform_bind_of_ok (s.perform_of_answer hanswer)]
    rfl

end Deletion

section Runs

variable {κ : Type} [ContentStore κ] {r : Regime} {stores : Stores κ} {P : Pool κ}

/-- At any moment, a contest is deleted exactly if it exists and has no problems, and what keeps it
    from being deleted is told. If it is not deleted nothing changes; if it is, its only row goes, with
    the registrations for it and the rankings in it, and everything else stays. -/
theorem contest_deletion_exact (hconsistent : stores.database.Consistent)
    (hconstrained : stores.database.Constrained)
    (hreach : OpenReachable r Database.Elsewhere (Pool.initial stores) P)
    (hnew : Problem.DrawsNew stores.database P.log) (contestId : Uuid) :
    let s := P.stores
    let outcome := s.perform (Contest.delete contestId)
    (outcome.1 = .error (.contestHasProblems contestId) ↔
      s.database.hasContest contestId = true ∧ ∃ p ∈ s.database.problems, p.contestId = contestId) ∧
    (outcome.1 = .error (Contest.missing contestId) ↔ s.database.hasContest contestId = false) ∧
    (outcome.1 = .ok () ↔
      s.database.hasContest contestId = true ∧ ∀ p ∈ s.database.problems, p.contestId ≠ contestId) ∧
    (∀ fault, outcome.1 = .error fault → outcome.2 = s) ∧
    (outcome.1 = .ok () →
      (∃ row, s.database.contests.filter (·.id == contestId) = [row]) ∧
      outcome.2 = { s with database := s.database.withoutContest contestId }) := by
  intro s outcome
  obtain ⟨hs, hkeys⟩ := Database.sound_of_reachable hconsistent hconstrained hreach hnew
  have hused : (∃ p ∈ s.database.problems, p.contestId = contestId) ↔
      s.database.problems.any (·.contestId == contestId) = true := by
    simp only [List.any_eq_true, beq_iff_eq]
  have hunused : (∀ p ∈ s.database.problems, p.contestId ≠ contestId) ↔
      s.database.problems.any (·.contestId == contestId) = false := by
    simp only [List.any_eq_false, beq_iff_eq, ne_eq]
  rw [hused, hunused]
  -- The outcome is one of three, and each of them says what is asked of it.
  have hdone : outcome = _ := Contest.perform_delete hs
  cases hcontest : s.database.hasContest contestId with
  | false =>
    rw [hcontest, if_pos rfl] at hdone
    simp [hdone, Contest.missing]
  | true =>
    have honly : ∃ row, s.database.contests.filter (·.id == contestId) = [row] :=
      hkeys.exists_only_contest hcontest
    rw [hcontest, if_neg Bool.true_eq_false_eq_False] at hdone
    cases hproblems : s.database.problems.any (·.contestId == contestId) with
    | true =>
      rw [hproblems, if_pos rfl] at hdone
      simp [hdone, Contest.missing]
    | false =>
      rw [hproblems, if_neg Bool.false_ne_true] at hdone
      simpa [hdone] using honly

end Runs

/-! ### A contest whose last problem is deleted -/

private theorem reachable_without_problem :
    ∃ P : Pool Content.Memory,
      OpenReachable Submission.unrestrained Database.Elsewhere
        (Pool.initial Submission.codeStores) P ∧
      Problem.DrawsNew Submission.codeStores.database P.log ∧
      P.stores.database.hasContest (.ofNat 1) = true ∧ P.stores.database.problems = [] := by
  have hsteps := Relation.ReflTransGen.refl
    (r := OpenStep Submission.unrestrained Database.Elsewhere)
    (a := Pool.initial Submission.codeStores)
  replace hsteps := hsteps.tail (.step (.begin_ _ (.deleteProblem (.ofNat 1) (.ofNat 2)) trivial))
  replace hsteps := hsteps.tail (.step (.call (i := 0) _ rfl (.database _ fun _ => trivial)))
  replace hsteps := hsteps.tail (.step (.call (i := 0) _ rfl (.database _ fun _ => trivial)))
  refine ⟨_, hsteps, ?_, rfl, rfl⟩
  intro e he id hdrawn
  iterate 2
    rcases he with _ | ⟨_, he⟩
    · exact nomatch hdrawn
  exact nomatch he

/-- The contest is deleted once its only problem is, and not before. -/
theorem deleted_after_last_problem :
    (Submission.codeStores.perform (Contest.delete (.ofNat 1))).1 =
      .error (.contestHasProblems (.ofNat 1)) ∧
    ∃ P : Pool Content.Memory,
      OpenReachable Submission.unrestrained Database.Elsewhere
        (Pool.initial Submission.codeStores) P ∧
      (P.stores.perform (Contest.delete (.ofNat 1))).1 = .ok () := by
  constructor
  · have hnone : Problem.DrawsNew Submission.codeStores.database [] :=
      fun e he => absurd he List.not_mem_nil
    have hbefore := contest_deletion_exact (r := Submission.unrestrained) consistent_codeStores
      constrained_codeStores .refl hnone (.ofNat 1)
    exact hbefore.1.mpr ⟨rfl, _, List.mem_singleton_self _, rfl⟩
  · obtain ⟨P, hreach, hnew, hcontest, hempty⟩ := reachable_without_problem
    have hafter := contest_deletion_exact consistent_codeStores constrained_codeStores hreach hnew
      (.ofNat 1)
    refine ⟨P, hreach, hafter.2.2.1.mpr ⟨hcontest, ?_⟩⟩
    rw [hempty]
    exact fun p hp => absurd hp List.not_mem_nil

end ContestPlatform
