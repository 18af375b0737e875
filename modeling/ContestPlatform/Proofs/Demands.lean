import ContestPlatform.Contest.Operations
import ContestPlatform.Proofs.InstantColumns
import ContestPlatform.Proofs.Performing
import Mathlib.Tactic.SplitIfs

/-!
# Demands

What an operation demands before it goes on is a list of tests, each with the fault that is given if
the test fails. The first demand that is not met decides the outcome, and later ones do not count
then. The gate of a contest, which whoever may see its problems passes, is such a list.
-/

namespace ContestPlatform

/-! ## Demands one after another -/

/-- A demand: whether it is met, and the fault if it is not. -/
structure Demand where
  met : Bool
  fault : Fault

namespace Demand

/-- The fault of the first demand that is not met. -/
def firstUnmet? : List Demand → Option Fault
  | [] => none
  | demand :: rest => if demand.met then firstUnmet? rest else some demand.fault

@[simp] theorem firstUnmet?_nil : firstUnmet? [] = none := rfl

@[simp] theorem firstUnmet?_met (fault : Fault) (rest : List Demand) :
    firstUnmet? (⟨true, fault⟩ :: rest) = firstUnmet? rest := rfl

@[simp] theorem firstUnmet?_unmet (fault : Fault) (rest : List Demand) :
    firstUnmet? (⟨false, fault⟩ :: rest) = some fault := rfl

/-- Nothing stands in the way if all demands are met. -/
theorem firstUnmet?_eq_none {demands : List Demand} :
    firstUnmet? demands = none ↔ ∀ demand ∈ demands, demand.met = true := by
  induction demands with
  | nil => simp
  | cons demand rest ih =>
    rw [firstUnmet?, List.forall_mem_cons, ← ih]
    cases demand.met <;> simp

/-- Later demands count if all earlier ones are met. -/
theorem firstUnmet?_append (demands later : List Demand) :
    firstUnmet? (demands ++ later) = (firstUnmet? demands).or (firstUnmet? later) := by
  induction demands with
  | nil => rfl
  | cons demand rest ih =>
    rw [List.cons_append, firstUnmet?, firstUnmet?, ih]
    cases demand.met <;> rfl

end Demand

/-! ## Operations that demand something -/

section Decided

variable {κ α β : Type} [ContentStore κ]

/-- The outcome of an operation is decided by demands: nothing is done if one of them is not met, and
    the first such one says with what fault; if all of them are met, `Q` says what the outcome is. -/
def Stores.Decided (s : Stores κ) (demands : List Demand) (x : Service α)
    (Q : Except Fault α × Stores κ → Prop) : Prop :=
  match Demand.firstUnmet? demands with
  | some fault => s.perform x = (.error fault, s)
  | none => Q (s.perform x)

/-- If its demands are met, an operation gives something that satisfies `P` and changes nothing. -/
abbrev Stores.Obtains (s : Stores κ) (demands : List Demand) (x : Service α) (P : α → Prop) : Prop :=
  s.Decided demands x fun outcome => ∃ a, P a ∧ outcome = (.ok a, s)

namespace Stores.Decided

variable {s : Stores κ} {demands later : List Demand} {x : Service α} {fault : Fault}
  {Q : Except Fault α × Stores κ → Prop}

/-- Where nothing is demanded the outcome is what it is. -/
theorem nil (h : Q (s.perform x)) : s.Decided [] x Q := h

/-- Demands on what is read do not count as long as nothing is read, so a call that reads is made
    without any. -/
theorem read {call : Database.Call} {result : call.Result} {f : call.Result → Service α}
    (hread : s.database.answer call = (.ok result, s.database))
    (h : s.Decided demands (f result) Q) :
    s.Decided demands (Service.database call >>= f) Q := by
  unfold Decided at h ⊢
  rw [s.perform_read hread]
  exact h

theorem now {f : Instant → Service α} (h : s.Decided demands (f s.now) Q) :
    s.Decided demands (Service.now >>= f) Q := by
  unfold Decided at h ⊢
  rw [perform_bind_of_ok s.perform_now]
  exact h

/-- What is looked for has to be there. -/
theorem found (fault : Fault) (a? : Option α) :
    s.Obtains [⟨a?.isSome, fault⟩] (Service.found fault a?) fun a => a? = some a := by
  cases a? with
  | none => rfl
  | some a => exact ⟨a, rfl, rfl⟩

/-- A test has to be passed. -/
theorem test {met : Bool} {p : Prop} [Decidable p] (hmet : met = decide p)
    (h : p → s.Decided later x Q) :
    s.Decided (⟨met, fault⟩ :: later) (if p then x else throw fault) Q := by
  by_cases hp : p
  · rw [hmet, decide_eq_true hp, if_pos hp]
    exact h hp
  · rw [hmet, decide_eq_false hp, if_neg hp]
    rfl

/-- Who fails a test is turned away before the rest. -/
theorem turned_away {met : Bool} {p : Prop} [Decidable p] (hmet : met = true ↔ ¬ p)
    {f : PUnit → Service α} (h : ¬ p → s.Decided later (f ⟨⟩) Q) :
    s.Decided (⟨met, fault⟩ :: later) (if p then throw fault >>= f else f ⟨⟩) Q := by
  by_cases hp : p
  · have hfails : met = false := Bool.eq_false_iff.mpr fun hpass => hmet.mp hpass hp
    rw [hfails, if_pos hp]
    rfl
  · rw [hmet.mpr hp, if_neg hp]
    exact h hp

/-- The last part of an operation tells whether it found what it was to change. -/
theorem last {y : Service Bool} {met : Bool} {t : Stores κ} {Q : Except Fault Unit × Stores κ → Prop}
    (hy : s.perform y = (.ok met, t)) (hsame : met = false → t = s)
    (hchanged : met = true → Q (.ok (), t)) :
    s.Decided [⟨met, fault⟩] (do if ← y then return () else throw fault) Q := by
  unfold Decided
  rw [perform_bind_of_ok hy]
  cases met with
  | true => exact hchanged rfl
  | false =>
    rw [hsame rfl]
    rfl

/-- Demands of a first part count before those of a second one, which is only come to if the first
    one has changed nothing. -/
theorem bind {P : β → Prop} {y : Service β} {f : β → Service α} (hy : s.Obtains demands y P)
    (hf : ∀ b, P b → s.Decided later (f b) Q) : s.Decided (demands ++ later) (y >>= f) Q := by
  unfold Stores.Obtains Decided at hy
  unfold Decided
  rw [Demand.firstUnmet?_append]
  cases hfirst : Demand.firstUnmet? demands with
  | some fault =>
    rw [hfirst] at hy
    exact perform_bind_of_error hy
  | none =>
    rw [hfirst] at hy
    obtain ⟨b, hb, hdone⟩ := hy
    have hsecond := hf b hb
    unfold Decided at hsecond
    rw [Option.none_or, perform_bind_of_ok hdone]
    exact hsecond

/-- A first part may have a single demand. -/
theorem bind_one {demand : Demand} {P : β → Prop} {y : Service β} {f : β → Service α}
    (hy : s.Obtains [demand] y P) (hf : ∀ b, P b → s.Decided later (f b) Q) :
    s.Decided (demand :: later) (y >>= f) Q :=
  bind hy hf

/-- An operation that has succeeded has met its demands. -/
theorem of_ok (h : s.Decided demands x Q) {a : α} {t : Stores κ} (hok : s.perform x = (.ok a, t)) :
    (∀ demand ∈ demands, demand.met = true) ∧ Q (.ok a, t) := by
  unfold Decided at h
  rw [← Demand.firstUnmet?_eq_none]
  cases hfirst : Demand.firstUnmet? demands with
  | some fault =>
    rw [hfirst, hok] at h
    exact nomatch h
  | none =>
    rw [hfirst, hok] at h
    exact ⟨rfl, h⟩

/-- An operation that gives nothing back succeeds exactly if all demands are met. -/
theorem succeeds_iff {y : Service Unit} {Q : Except Fault Unit × Stores κ → Prop}
    (h : s.Decided demands y Q) (hok : ∀ outcome, Q outcome → outcome.1 = .ok ()) :
    (s.perform y).1 = .ok () ↔ ∀ demand ∈ demands, demand.met = true := by
  constructor
  · intro hdone
    exact (h.of_ok (Prod.ext hdone rfl)).1
  · intro hmet
    unfold Decided at h
    rw [Demand.firstUnmet?_eq_none.mpr hmet] at h
    exact hok _ h

end Stores.Decided

end Decided

/-! ## The gate of a contest -/

section Gate

/-- Who may see the problems of a contest is registered for it, and it has started. -/
def Contest.gate {κ : Type} (s : Stores κ) (contestId userId : Uuid) : List Demand :=
  [⟨(s.database.contest? contestId).isSome, missing contestId⟩,
   ⟨s.database.isRegistered contestId userId, .userNotRegistered contestId userId⟩,
   ⟨(s.database.contest? contestId).any (·.start ≤ s.now), .contestNotRunning contestId⟩]

variable {κ : Type} [ContentStore κ] (s : Stores κ)

/-- A contest is found, or nothing was done. -/
theorem Contest.obtains_find (id : Uuid) :
    s.Obtains [⟨(s.database.contest? id).isSome, missing id⟩] (find id)
      fun contest => s.database.contest? id = some contest :=
  .read rfl (.found _ _)

/-- A contest has started when it is not upcoming any more. -/
theorem Contest.runningAt_ne_upcoming {c : Contest} {now : Instant} :
    ¬ c.runningAt now = .upcoming ↔ c.start ≤ now := by
  rw [← Instant.not_lt, runningAt]
  split_ifs with hupcoming hrunning
  · simp [hupcoming]
  · simp [hupcoming]
  · simp [hupcoming]

/-- Who may see the problems of a contest: those who are registered, once it has started. -/
theorem Contest.perform_checkVisibility (contestId userId : Uuid) :
    s.perform (checkVisibility contestId userId) =
      (match s.database.contest? contestId with
      | none => .error (missing contestId)
      | some contest =>
        if s.database.isRegistered contestId userId then
          if contest.runningAt s.now = .upcoming then .error (.contestNotRunning contestId)
          else .ok contest
        else .error (.userNotRegistered contestId userId), s) := by
  rw [checkVisibility, Stores.perform_bind, find, Stores.perform_bind, Stores.perform_database]
  simp only [Database.answer]
  cases s.database.contest? contestId with
  | none => rfl
  | some contest =>
    simp only [Stores.perform_found_some]
    rw [Stores.perform_bind, Stores.perform_database]
    simp only [Database.answer]
    cases s.database.isRegistered contestId userId with
    | false => rfl
    | true =>
      simp only [Bool.not_true, Bool.false_eq_true, if_false, Stores.perform_bind,
        Stores.perform_now, if_true]
      split_ifs <;> rfl

/-- The gate of a contest is passed, or nothing was done. -/
theorem Contest.perform_checkVisibility_gate (contestId userId : Uuid) :
    match Demand.firstUnmet? (gate s contestId userId) with
    | some fault => s.perform (checkVisibility contestId userId) = (.error fault, s)
    | none => ∃ contest, s.database.contest? contestId = some contest ∧ contest.start ≤ s.now ∧
        s.database.isRegistered contestId userId = true ∧
        s.perform (checkVisibility contestId userId) = (.ok contest, s) := by
  have hdecided : s.Decided (gate s contestId userId) (checkVisibility contestId userId)
      fun outcome => ∃ contest, s.database.contest? contestId = some contest ∧
        contest.start ≤ s.now ∧ s.database.isRegistered contestId userId = true ∧
        outcome = (.ok contest, s) := by
    refine .bind_one (obtains_find s contestId) fun contest hcontest => .read rfl ?_
    refine .turned_away (by simp) fun hregistered => .now ?_
    rw [hcontest]
    refine .turned_away (by simp [runningAt_ne_upcoming]) fun hstarted => .nil ?_
    exact ⟨contest, rfl, runningAt_ne_upcoming.mp hstarted, by simpa using hregistered, rfl⟩
  exact hdecided

end Gate

end ContestPlatform
