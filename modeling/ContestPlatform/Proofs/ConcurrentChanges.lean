import ContestPlatform.Proofs.Answers
import ContestPlatform.Proofs.Histories
import ContestPlatform.Proofs.ProblemCalls
import ContestPlatform.Proofs.ProblemRows

/-!
# Changes of a problem at the same time

A change looks the row of a problem up, merges what it supplies into the whole row, and writes the
whole row back. Nothing keeps others from writing in between. So of the changes that were written
some make up the row, each one on top of the one before: a chain that ends with the change that was
written last. A change that is not in the chain is lost, although its operation has succeeded.
-/

namespace ContestPlatform

open Interleaving

/-! ## The row of a problem -/

namespace Database.Effect

variable {db db' : Database} {call : Call} {answer : call.Answer} {contestId id : Uuid}
  {q : Problem}

/-- A row that is replaced keeps nothing but its key. -/
theorem problem?_replace {p : Problem} (h : Effect db (.replaceProblem p) (.ok true) db')
    (hfind : db.problem? contestId id = some q) (hcontest : p.contestId = contestId)
    (hid : p.id = id) :
    db'.problem? contestId id = some { p with contentKey := q.contentKey } := by
  subst hcontest hid
  cases h with
  | read hreads => exact nomatch hreads
  | problemReplaced _ =>
    have hq : isProblemOf p.contestId p.id q = true :=
      isProblemOf_eq_true.mpr (mem_of_problem? hfind).2
    unfold problem? at hfind ⊢
    rw [find?_map_of_eq (isProblemOf_replaced p), hfind, Option.map_some, if_pos hq]

theorem problem?_other (h : Effect db call answer db')
    (hfind : db.problem? contestId id = some q)
    (hreplace : ∀ p, call = .replaceProblem p → ¬ (p.contestId = contestId ∧ p.id = id))
    (hremove : call ≠ .removeProblem contestId id) : db'.problem? contestId id = some q := by
  cases h with
  | problemAdded _ _ =>
    unfold problem? at hfind ⊢
    rw [List.find?_append, hfind, Option.some_or]
  | @problemReplaced p _ =>
    -- A row that is replaced is one of another problem, and it still is.
    have hsame : ∀ r : Problem, isProblemOf contestId id
        (if isProblemOf p.contestId p.id r then { p with contentKey := r.contentKey } else r) =
          isProblemOf contestId id r := by
      intro r
      split
      case isTrue hr =>
        obtain ⟨hcontest, hid⟩ := isProblemOf_eq_true.mp hr
        simp only [isProblemOf, hcontest, hid]
      case isFalse => rfl
    have hq : isProblemOf p.contestId p.id q = false := by
      refine Bool.eq_false_iff.mpr fun hq => hreplace p rfl ?_
      obtain ⟨hcontest, hid⟩ := (mem_of_problem? hfind).2
      obtain ⟨hcontest', hid'⟩ := isProblemOf_eq_true.mp hq
      exact ⟨hcontest'.symm.trans hcontest, hid'.symm.trans hid⟩
    unfold problem? at hfind ⊢
    rw [find?_map_of_eq hsame, hfind, Option.map_some, hq]
    rfl
  | @problemRemoved c i _ =>
    unfold problem? at hfind ⊢
    refine (find?_filter_of_imp fun r hr => ?_).trans hfind
    rw [Bool.not_eq_true', Bool.eq_false_iff]
    intro hr'
    obtain ⟨hcontest, hid⟩ := isProblemOf_eq_true.mp hr
    obtain ⟨hcontest', hid'⟩ := isProblemOf_eq_true.mp hr'
    rw [← hcontest, ← hid, hcontest', hid'] at hremove
    exact hremove rfl
  | _ => exact hfind

end Database.Effect

namespace Problem

theorem place_foldl (changes : List ProblemChange) (p : Problem) :
    (changes.foldl apply p).place = p.place := by
  induction changes generalizing p with
  | nil => rfl
  | cons change rest ih => exact (ih (p.apply change)).trans (place_apply p change)

/-! ## Changes that were written -/

/-- The change of which the row was written at an event. -/
def written? (contestId id : Uuid) : Event → Option ProblemChange
  | ⟨_, .updateProblem c i change, .database (.replaceProblem _), .ok true⟩ =>
    if c = contestId ∧ i = id then some change else none
  | _ => none

/-- The changes that were written, the latest one last. -/
def written (contestId id : Uuid) (log : List Event) : List ProblemChange :=
  log.filterMap (written? contestId id)

theorem written?_eq_some {contestId id : Uuid} {e : Event} {change : ProblemChange}
    (h : written? contestId id e = some change) :
    e.operation = .updateProblem contestId id change ∧
      ∃ p, e.exchange = ⟨.database (.replaceProblem p), Except.ok true⟩ := by
  unfold written? at h
  split at h
  · split_ifs at h with hplace
    obtain ⟨rfl, rfl⟩ := hplace
    cases h
    exact ⟨rfl, _, rfl⟩
  · exact nomatch h

/-- What a change writes is the row that it has found, changed. -/
theorem eq_apply_of_leads {contestId id : Uuid} {change : ProblemChange}
    {exchanges : List Exchange} {p : Problem}
    {next : Except Fault Bool → StoreProgram (Except Fault Json)}
    (h : Leads (Operation.updateProblem contestId id change).run.run exchanges
      (.ask (.database (.replaceProblem p)) next)) :
    ∃ q, ⟨.database (.findProblem contestId id), Except.ok (some q)⟩ ∈ exchanges ∧
      p = q.apply change := by
  rw [calls_update] at h
  -- The row is written after it was found, so there was an answer to that.
  cases h with
  | @on _ _ found rest _ h =>
  rcases found with fault | (_ | q)
  · exact nomatch h.of_done.2
  · exact nomatch h.of_done.2
  refine ⟨q, List.mem_cons_self, ?_⟩
  have of_replaceCalls : ∀ rest wrote, Leads (replaceCalls id (q.apply change) wrote) rest
      (.ask (.database (.replaceProblem p)) next) → p = q.apply change := by
    intro rest wrote h
    cases h with
    | here => rfl
    | @on _ _ replaced rest _ h =>
      rcases replaced with fault | (_ | _)
      · exact nomatch h.of_done.2
      · -- The row is gone, and at most there is a document to remove.
        cases wrote with
        | false => exact nomatch h.of_done.2
        | true =>
          cases h with
          | on h => exact nomatch h.of_done.2
      · exact nomatch h.of_done.2
  cases hdescription : change.description with
  | none =>
    simp only [hdescription] at h
    exact of_replaceCalls _ _ h
  | some description =>
    simp only [hdescription] at h
    cases h with
    | @on _ _ stored rest _ h =>
      rcases stored with fault | _
      · exact nomatch h.of_done.2
      · exact of_replaceCalls _ _ h

/-! ## The row at any moment -/

variable {κ : Type}

/-- Some of the changes, in their order, make one row of another. -/
def Made (changes : List ProblemChange) (p q : Problem) : Prop :=
  ∃ chain : List ProblemChange, chain.Sublist changes ∧ q = chain.foldl apply p

/-- The row of a problem, and every row of it that was found, is made of changes that were written.
    The row itself has the latest one on top. -/
structure Grown (contestId id : Uuid) (p : Problem) (s : Shared κ) : Prop where
  row : ∃ chain : List ProblemChange, chain.Sublist (written contestId id s.log) ∧
    chain.getLast? = (written contestId id s.log).getLast? ∧
    s.stores.database.problem? contestId id = some (chain.foldl apply p)
  found : ∀ e ∈ s.log, ∀ c i q,
    e.exchange = ⟨.database (.findProblem c i), Except.ok (some q)⟩ →
      q.contestId = c ∧ q.id = i ∧ (c = contestId → i = id →
        Made (written contestId id s.log) p q)

namespace Grown

variable [ContentStore κ] {r : Regime} {contestId id : Uuid} {p : Problem} {s : Shared κ} {i : Nat}
  {operation : Operation} {call : Call} {answer : call.Answer} {stores : Stores κ}

theorem found_after (h : Grown contestId id p s) (hans : Answered r s call answer stores) :
    ∀ e ∈ s.log ++ [⟨i, operation, call, answer⟩], ∀ c i q,
      e.exchange = ⟨.database (.findProblem c i), Except.ok (some q)⟩ →
        q.contestId = c ∧ q.id = i ∧ (c = contestId → i = id →
          Made (written contestId id s.log) p q) := by
  intro e he c i q heq
  rcases List.mem_append.mp he with hold | hnew
  · exact h.found e hold c i q heq
  · rw [List.mem_singleton.mp hnew] at heq
    cases heq
    -- The row that is found now is the row of the problem as it is.
    have hfind : s.stores.database.problem? c i = some q := Except.ok.inj hans.database_ok.1
    obtain ⟨-, hcontest, hid⟩ := Database.mem_of_problem? hfind
    refine ⟨hcontest, hid, fun hc hi => ?_⟩
    obtain ⟨chain, hchain, -, hrow⟩ := h.row
    rw [hc, hi, hrow] at hfind
    exact ⟨chain, hchain, (Option.some.inj hfind).symm⟩

theorem after_other (h : Grown contestId id p s) (hans : Answered r s call answer stores)
    (hwritten : written? contestId id ⟨i, operation, call, answer⟩ = none)
    (hrow : ∀ q, s.stores.database.problem? contestId id = some q →
      stores.database.problem? contestId id = some q) :
    Grown contestId id p (s.after ⟨i, operation, call, answer⟩ stores) := by
  have hsame : written contestId id (s.log ++ [⟨i, operation, call, answer⟩]) =
      written contestId id s.log := by
    rw [written, filterMap_concat, hwritten, Option.toList_none, List.append_nil]
    rfl
  constructor
  · rw [Shared.after_log, hsame]
    obtain ⟨chain, hchain, hlast, hfind⟩ := h.row
    exact ⟨chain, hchain, hlast, hrow _ hfind⟩
  · rw [Shared.after_log, hsame]
    exact h.found_after hans

/-- A change that is written is put on top of the changes of the row that it has found. -/
theorem after_written (h : Grown contestId id p s) {change : ProblemChange} {q : Problem}
    (hans : Answered r s (.database (.replaceProblem (q.apply change))) (Except.ok true) stores)
    (hfound : Made (written contestId id s.log) p q)
    (hcontest : q.contestId = contestId) (hid : q.id = id) :
    Grown contestId id p (s.after ⟨i, .updateProblem contestId id change,
      .database (.replaceProblem (q.apply change)), Except.ok true⟩ stores) := by
  have hone : written contestId id (s.log ++ [⟨i, .updateProblem contestId id change,
      .database (.replaceProblem (q.apply change)), Except.ok true⟩]) =
        written contestId id s.log ++ [change] := by
    rw [written, filterMap_concat]
    exact congrArg (written contestId id s.log ++ ·) (congrArg Option.toList (if_pos ⟨rfl, rfl⟩))
  obtain ⟨chain, hchain, rfl⟩ := hfound
  -- What was written since the row was found is not in the chain: it is lost.
  have hmore : (chain ++ [change]).Sublist (written contestId id s.log ++ [change]) :=
    hchain.append_right [change]
  constructor
  · rw [Shared.after_log, hone]
    refine ⟨chain ++ [change], hmore, ?_, ?_⟩
    · rw [List.getLast?_concat, List.getLast?_concat]
    · obtain ⟨before, -, -, hfind⟩ := h.row
      -- Changes do not touch the key, so it is the same in all rows.
      have hplace : (before.foldl apply p).place = (chain.foldl apply p).place := by
        rw [place_foldl, place_foldl]
      have hkey : (before.foldl apply p).contentKey = (chain.foldl apply p).contentKey :=
        congrArg (fun place => place.2.2) hplace
      rw [Shared.after_stores, hans.effect.1.problem?_replace hfind hcontest hid, hkey,
        List.foldl_append]
      rfl
  · rw [Shared.after_log, hone]
    intro e he c j q heq
    obtain ⟨hc, hj, hmade⟩ := h.found_after hans e he c j q heq
    refine ⟨hc, hj, fun hc hj => ?_⟩
    obtain ⟨chain, hchain, hq⟩ := hmade hc hj
    exact ⟨chain, hchain.trans (List.sublist_append_left _ _), hq⟩

/-- Every call keeps it so, unless the problem is deleted. -/
theorem after (h : Grown contestId id p s) (hkept : operation ≠ .deleteProblem contestId id)
    {next : call.Answer → StoreProgram (Except Fault Json)}
    (hleads : Leads operation.run.run (exchangesOf s.log i) (.ask call next))
    (hans : Answered r s call answer stores) :
    Grown contestId id p (s.after ⟨i, operation, call, answer⟩ stores) := by
  cases hwritten : written? contestId id ⟨i, operation, call, answer⟩ with
  | some change =>
    obtain ⟨hoperation, p', hexchange⟩ := written?_eq_some hwritten
    obtain rfl : operation = .updateProblem contestId id change := hoperation
    cases hexchange
    obtain ⟨q, hq, rfl⟩ := eq_apply_of_leads hleads
    obtain ⟨e, he, -, hfind⟩ := mem_exchangesOf.mp hq
    obtain ⟨hcontest, hid, hmade⟩ := h.found e he contestId id q hfind
    exact h.after_written hans (hmade rfl rfl) hcontest hid
  | none =>
    refine h.after_other hans hwritten fun q hq => ?_
    by_cases hown : ∃ p' : Problem, call = .database (.replaceProblem p') ∧
        p'.contestId = contestId ∧ p'.id = id
    · obtain ⟨p', rfl, hcontest, hid⟩ := hown
      rcases answer with fault | (_ | _)
      · rw [hans.database_error.1]
        exact hq
      · rw [hans.effect.1.of_denies rfl]
        exact hq
      · -- The row was written, so the operation is a change of this problem.
        obtain ⟨c, j, change, rfl⟩ := hleads.mayAsk.replaceProblem
        obtain ⟨q', hq', rfl⟩ := eq_apply_of_leads hleads
        obtain ⟨e, he, -, hfind⟩ := mem_exchangesOf.mp hq'
        obtain ⟨hc, hj, -⟩ := h.found e he c j q' hfind
        have hsome : written? contestId id ⟨i, .updateProblem c j change,
            .database (.replaceProblem (q'.apply change)), Except.ok true⟩ = some change :=
          if_pos ⟨hc.symm.trans hcontest, hj.symm.trans hid⟩
        rw [hwritten] at hsome
        exact nomatch hsome
    · cases call with
      | database call =>
        refine hans.effect.1.problem?_other hq (fun p' heq hplace => ?_) fun heq => ?_
        · exact hown ⟨p', congrArg Call.database heq, hplace⟩
        · subst heq
          exact hkept hleads.mayAsk.removeProblem
      | now | freshId | content =>
        rw [hans.database_of_other (fun _ => nofun)]
        exact hq

end Grown

section Runs

variable [ContentStore κ] {r : Regime} {stores : Stores κ} {P : Pool κ} {contestId id : Uuid}
  {p : Problem}

/-- Whatever else runs, as long as the problem is not deleted, its row is what some of the changes
    that were written have made of it, in their order, the latest one on top. -/
theorem row_of_changes (hkept : ¬ r.admits (.deleteProblem contestId id))
    (hfind : stores.database.problem? contestId id = some p)
    (hreach : Reachable r (Pool.initial stores) P) :
    ∃ chain : List ProblemChange, chain.Sublist (written contestId id P.log) ∧
      chain.getLast? = (written contestId id P.log).getLast? ∧
      P.stores.database.problem? contestId id = some (chain.foldl apply p) := by
  have hgrown : Grown contestId id p P.toShared := by
    refine hreach.invariant ⟨⟨[], List.nil_sublist _, rfl, hfind⟩,
      fun e he => absurd he List.not_mem_nil⟩ ?_
    intro s i operation call next answer stores' h hadmits hleads hans
    refine h.after ?_ hleads hans
    rintro rfl
    exact hkept hadmits
  exact hgrown.row

/-- Of two changes that were written the second one has seen the first one, or the first one is
    lost. -/
theorem row_of_two_changes (hkept : ¬ r.admits (.deleteProblem contestId id))
    (hfind : stores.database.problem? contestId id = some p)
    (hreach : Reachable r (Pool.initial stores) P) {first second : ProblemChange}
    (hwritten : written contestId id P.log = [first, second]) :
    P.stores.database.problem? contestId id = some ((p.apply first).apply second) ∨
      P.stores.database.problem? contestId id = some (p.apply second) := by
  obtain ⟨chain, hchain, hlast, hrow⟩ := row_of_changes hkept hfind hreach
  rw [hwritten] at hchain hlast
  rcases chain with _ | ⟨change, _ | ⟨change', rest⟩⟩
  · exact nomatch hlast
  · cases hlast
    exact Or.inr hrow
  · -- Two changes out of two are both of them.
    have hboth := hchain.eq_of_length_le (by simp)
    rw [hboth] at hrow
    exact Or.inl hrow

end Runs

/-! ## A change that is lost -/

/-- Only changes of problems run, and nothing fails. -/
def changing : Regime where
  admits operation := ∃ contestId id change, operation = .updateProblem contestId id change
  mayFail _ := False
  mayCancel := False

/-- A problem that is about to get another name and another score. -/
def oldProblem : Problem :=
  .ofNew (.ofNat 1) (.ofNat 2) ⟨"Sums", "Add two numbers.", 10, .code, []⟩

/-- Stores with the problem. -/
def problemStores : Stores Content.Memory where
  now := default
  ids := .initial
  database := { Database.empty with problems := [oldProblem] }
  content := .empty

def newName : ProblemChange :=
  ⟨some "Totals", none, none, none, none⟩

def newScore : ProblemChange :=
  ⟨none, none, some 20, none, none⟩

/-- The change of the name and the change of the score both succeed, and the name is the old one. -/
theorem newName_lost :
    ∃ P : Pool Content.Memory, Reachable changing (Pool.initial problemStores) P ∧
      P.tasks = [⟨.updateProblem oldProblem.contestId oldProblem.id newName,
          some (.done (.ok (oldProblem.apply newName).toJson))⟩,
        ⟨.updateProblem oldProblem.contestId oldProblem.id newScore,
          some (.done (.ok (oldProblem.apply newScore).toJson))⟩] ∧
      P.stores.database.problems = [oldProblem.apply newScore] ∧
      (oldProblem.apply newScore).name = "Sums" := by
  refine ⟨_, .tail (.tail (.tail (.tail (.tail (.tail .refl
    (.begin_ _ (.updateProblem oldProblem.contestId oldProblem.id newName) ⟨_, _, _, rfl⟩))
    (.begin_ _ (.updateProblem oldProblem.contestId oldProblem.id newScore) ⟨_, _, _, rfl⟩))
    (.call (i := 0) _ rfl (.database _ ?_)))
    (.call (i := 1) _ rfl (.database _ ?_)))
    (.call (i := 0) _ rfl (.database _ ?_)))
    (.call (i := 1) _ rfl (.database _ ?_)), rfl, rfl, rfl⟩
  all_goals
    rintro ⟨fault, h, -⟩
    exact nomatch h

end Problem

end ContestPlatform
