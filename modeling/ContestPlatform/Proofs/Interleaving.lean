import ContestPlatform.Service.Operation
import ContestPlatform.Service.Stores
import Mathlib.Logic.Relation
import Mathlib.Tactic.SplitIfs

/-!
# Operations that run at the same time

Any number of operations run on stores that they share. Their calls may be answered in any order, a
call may fail and then has no effect, and an operation may be cancelled between two of its calls.
Which operations, failures and cancellations there may be is said by a regime.

To prove something of all interleavings, one gives an invariant, a relation that every single call
keeps to, and for each operation an outline: what the operation knows before each of its calls. What
an operation knows must survive the calls of all others (`Stable`). `Protocol.sound` then gives the
invariant in every pool that can be reached, and what the operations that are done know.
-/

namespace ContestPlatform.Interleaving

/-! ## Pools -/

/-- A call that was answered. -/
structure Event where
  /-- The number of the task that made the call. -/
  task : Nat
  operation : Operation
  call : Call
  answer : call.Answer

namespace Event

/-- The identifier that was drawn, if the call was for one. -/
def drawn? : Event → Option Uuid
  | ⟨_, _, .freshId, id⟩ => some id
  | _ => none

end Event

/-- What the tasks share, and the calls that were answered so far, the latest one last. -/
structure Shared (κ : Type) where
  stores : Stores κ
  log : List Event

namespace Shared

variable {κ : Type}

/-- What is shared after a call was answered. -/
def after (s : Shared κ) (e : Event) (stores : Stores κ) : Shared κ :=
  ⟨stores, s.log ++ [e]⟩

@[simp] theorem after_stores (s : Shared κ) (e : Event) (stores : Stores κ) :
    (s.after e stores).stores = stores := rfl

@[simp] theorem after_log (s : Shared κ) (e : Event) (stores : Stores κ) :
    (s.after e stores).log = s.log ++ [e] := rfl

end Shared

/-- An operation that was begun. -/
structure Task where
  operation : Operation
  /-- What is left of its program; nothing if it was cancelled. -/
  rest : Option (StoreProgram (Except Fault Json))

namespace Task

/-- The operation is done or was cancelled. -/
def IsOver (t : Task) : Prop :=
  ∀ p ∈ t.rest, ∃ result, p = .done result

end Task

/-- Operations on shared stores. The number of a task is its place in the list. -/
structure Pool (κ : Type) extends Shared κ where
  tasks : List Task

/-- What may happen besides calls that work. -/
structure Regime where
  /-- Operations that may be begun. -/
  admits : Operation → Prop
  /-- Calls that may fail. -/
  mayFail : Call → Prop
  mayCancel : Prop

variable {κ : Type}

/-- An identifier was drawn by a task. -/
def Drew (log : List Event) (task : Nat) (id : Uuid) : Prop :=
  ∃ e ∈ log, e.task = task ∧ e.drawn? = some id

theorem drew_append {log : List Event} {e : Event} {task : Nat} {id : Uuid} :
    Drew (log ++ [e]) task id ↔ Drew log task id ∨ (e.task = task ∧ e.drawn? = some id) := by
  simp only [Drew, List.mem_append, List.mem_singleton, or_and_right, exists_or, exists_eq_left]

theorem not_drew_of_notMem {log : List Event} {id : Uuid}
    (h : id ∉ log.filterMap Event.drawn?) (task : Nat) : ¬ Drew log task id := by
  rintro ⟨e, he, -, hdrawn⟩
  exact h (List.mem_filterMap.mpr ⟨e, he, hdrawn⟩)

/-- An answer that says that the call failed. That a contest still has problems is no failure. -/
def Fails : (call : Call) → call.Answer → Prop
  | .now, _ => False
  | .freshId, _ => False
  | .database _, answer => ∃ fault, answer = .error fault ∧ fault.kind = .infrastructure
  | .content _, answer => ∃ fault, answer = .error fault

theorem not_fails_database {call : Database.Call} {answer : call.Answer}
    (h : ∃ result, answer = .ok result) : ¬ Fails (.database call) answer := by
  obtain ⟨result, rfl⟩ := h
  rintro ⟨fault, h, -⟩
  exact nomatch h

theorem not_fails_content {call : Content.Call} {answer : call.Answer}
    (h : ∃ result, answer = .ok result) : ¬ Fails (.content call) answer := by
  obtain ⟨result, rfl⟩ := h
  rintro ⟨fault, h⟩
  exact nomatch h

/-- What a call may be answered, and the stores after it. The clock may show anything, and an
    identifier was never drawn before. A call that fails has no effect. -/
inductive Answered [ContentStore κ] (r : Regime) (s : Shared κ) :
    (call : Call) → call.Answer → Stores κ → Prop where
  | clock (now : Instant) : Answered r s .now now s.stores
  | fresh (id : Uuid) (hid : ∀ task, ¬ Drew s.log task id) : Answered r s .freshId id s.stores
  | database (call : Database.Call)
      (hfail : Fails (.database call) (s.stores.answer (.database call)).1 →
        r.mayFail (.database call)) :
      Answered r s (.database call) (s.stores.answer (.database call)).1
        (s.stores.answer (.database call)).2
  | content (call : Content.Call)
      (hfail : Fails (.content call) (s.stores.answer (.content call)).1 →
        r.mayFail (.content call)) :
      Answered r s (.content call) (s.stores.answer (.content call)).1
        (s.stores.answer (.content call)).2
  | trouble (call : Call) (answer : call.Answer) (hfail : Fails call answer)
      (hmay : r.mayFail call) : Answered r s call answer s.stores

/-- One step of a pool. -/
inductive Step [ContentStore κ] (r : Regime) : Pool κ → Pool κ → Prop where
  /-- An operation is begun. -/
  | begin_ (P : Pool κ) (operation : Operation) (hadmits : r.admits operation) :
      Step r P { P with tasks := P.tasks ++ [⟨operation, some operation.run.run⟩] }
  /-- A call of a task is answered. -/
  | call (P : Pool κ) {i : Nat} {operation : Operation} {call : Call}
      {next : call.Answer → StoreProgram (Except Fault Json)} {answer : call.Answer}
      {stores : Stores κ} (htask : P.tasks[i]? = some ⟨operation, some (.ask call next)⟩)
      (hanswer : Answered r P.toShared call answer stores) :
      Step r P ⟨P.toShared.after ⟨i, operation, call, answer⟩ stores,
        P.tasks.set i ⟨operation, some (next answer)⟩⟩
  /-- An operation is cancelled between two of its calls. -/
  | cancel (P : Pool κ) {i : Nat} {operation : Operation} {call : Call}
      {next : call.Answer → StoreProgram (Except Fault Json)}
      (htask : P.tasks[i]? = some ⟨operation, some (.ask call next)⟩) (hmay : r.mayCancel) :
      Step r P { P with tasks := P.tasks.set i ⟨operation, none⟩ }

/-- A pool can be reached from another one. -/
def Reachable [ContentStore κ] (r : Regime) : Pool κ → Pool κ → Prop :=
  Relation.ReflTransGen (Step r)

/-- A pool in which nothing was begun. -/
def Pool.initial (stores : Stores κ) : Pool κ :=
  ⟨⟨stores, []⟩, []⟩

/-! ## Protocols -/

/-- What the tasks promise each other. -/
structure Protocol (κ : Type) where
  /-- What holds between any two calls. -/
  inv : Shared κ → Prop
  /-- What a single call may do to what is shared. -/
  move : Shared κ → Event → Shared κ → Prop

namespace Protocol

variable (R : Protocol κ)

/-- A fact that the calls of other tasks do not destroy. -/
def Stable (i : Nat) (A : Shared κ → Prop) : Prop :=
  ∀ s e stores, e.task ≠ i → R.inv s → R.inv (s.after e stores) →
    R.move s e (s.after e stores) → A s → A (s.after e stores)

/-- The outline of a program of a task that knows `A`: every call keeps to the protocol and leaves
    behind what the rest of the program needs, and in the end `Q` is known of the result. -/
def Outline [ContentStore κ] (r : Regime) (i : Nat) (operation : Operation)
    (Q : Except Fault Json → Shared κ → Prop) :
    (Shared κ → Prop) → StoreProgram (Except Fault Json) → Prop
  | A, .done result => R.Stable i A ∧ ∀ s, R.inv s → A s → Q result s
  -- Whatever the answer is, there has to be something that is enough for the rest of the program.
  | A, .ask call next =>
    R.Stable i A ∧ ∀ s answer stores, R.inv s → A s → Answered r s call answer stores →
      let e : Event := ⟨i, operation, call, answer⟩
      R.inv (s.after e stores) ∧ R.move s e (s.after e stores) ∧
        ∃ B : Shared κ → Prop, B (s.after e stores) ∧ Outline r i operation Q B (next answer)

/-- A task that has not made a call. -/
def NotBegun (i : Nat) (s : Shared κ) : Prop :=
  ∀ e ∈ s.log, e.task ≠ i

theorem stable_notBegun (i : Nat) : R.Stable i (NotBegun i) := by
  intro s e stores hne _ _ _ h e' he'
  rw [Shared.after_log, List.mem_append, List.mem_singleton] at he'
  rcases he' with hold | rfl
  · exact h e' hold
  · exact hne

theorem Stable.and {i : Nat} {A B : Shared κ → Prop} (hA : R.Stable i A) (hB : R.Stable i B) :
    R.Stable i fun s => A s ∧ B s :=
  fun s e stores hne hi hi' hm h =>
    ⟨hA s e stores hne hi hi' hm h.1, hB s e stores hne hi hi' hm h.2⟩

/-- What holds of a pool whose tasks keep to a protocol. -/
structure Sound [ContentStore κ] (r : Regime) (Q : Nat → Except Fault Json → Shared κ → Prop)
    (P : Pool κ) : Prop where
  inv : R.inv P.toShared
  /-- Only tasks that were begun have made calls. -/
  numbered : ∀ e ∈ P.log, e.task < P.tasks.length
  /-- Every task is at a place of its outline. -/
  outlined : ∀ i t, P.tasks[i]? = some t → ∀ p ∈ t.rest,
    ∃ A : Shared κ → Prop, A P.toShared ∧ R.Outline r i t.operation (Q i) A p
  /-- Tasks are not cancelled where they may not be. -/
  kept : ∀ t ∈ P.tasks, t.rest = none → r.mayCancel

variable {R} {r : Regime} {Q : Nat → Except Fault Json → Shared κ → Prop}

theorem stable_const (i : Nat) (p : Prop) : R.Stable i fun _ => p :=
  fun _ _ _ _ _ _ _ h => h

theorem Stable.of_step {i : Nat} {A : Shared κ → Prop}
    (h : ∀ s e stores, A s → A (s.after e stores)) : R.Stable i A :=
  fun s e stores _ _ _ _ => h s e stores

theorem Outline.stable [ContentStore κ] {i : Nat} {operation : Operation}
    {Q : Except Fault Json → Shared κ → Prop} {A : Shared κ → Prop}
    {p : StoreProgram (Except Fault Json)} (h : R.Outline r i operation Q A p) : R.Stable i A := by
  cases p with
  | done result => exact h.1
  | ask call next => exact h.1

theorem Outline.weaken [ContentStore κ] {i : Nat} {operation : Operation}
    {Q : Except Fault Json → Shared κ → Prop} {A A' : Shared κ → Prop}
    {p : StoreProgram (Except Fault Json)} (h : R.Outline r i operation Q A p)
    (hstable : R.Stable i A') (himp : ∀ s, A' s → A s) : R.Outline r i operation Q A' p := by
  cases p with
  | done result => exact ⟨hstable, fun s hi hA => h.2 s hi (himp s hA)⟩
  | ask call next =>
    exact ⟨hstable, fun s answer stores hi hA hans => h.2 s answer stores hi (himp s hA) hans⟩

/-- What is known in the end may be weakened. -/
theorem Outline.imp [ContentStore κ] {i : Nat} {operation : Operation}
    {Q Q' : Except Fault Json → Shared κ → Prop} {A : Shared κ → Prop}
    {p : StoreProgram (Except Fault Json)} (h : R.Outline r i operation Q A p)
    (himp : ∀ result s, Q result s → Q' result s) : R.Outline r i operation Q' A p := by
  induction p generalizing A with
  | done result => exact ⟨h.1, fun s hi hA => himp result s (h.2 s hi hA)⟩
  | ask call next ih =>
    refine ⟨h.1, fun s answer stores hi hA hans => ?_⟩
    obtain ⟨hinv, hmove, B, hB, hrest⟩ := h.2 s answer stores hi hA hans
    exact ⟨hinv, hmove, B, hB, ih answer hrest⟩

/-- A step of a pool keeps what the tasks promise each other. -/
theorem Sound.step [ContentStore κ]
    (houtline : ∀ i operation, r.admits operation →
      R.Outline r i operation (Q i) (NotBegun i) operation.run.run)
    {P P' : Pool κ} (hsound : R.Sound r Q P) (hstep : Step r P P') : R.Sound r Q P' := by
  obtain ⟨hinv, hnumbered, houtlined, hkept⟩ := hsound
  cases hstep with
  | begin_ operation hadmits =>
    refine ⟨hinv, fun e he => ?_, fun i t ht => ?_, fun t ht => ?_⟩
    · have hlt := hnumbered e he
      simp only [List.length_append, List.length_singleton]
      omega
    · rcases Nat.lt_or_ge i P.tasks.length with hi | hi
      · rw [List.getElem?_append_left hi] at ht
        exact houtlined i t ht
      · -- The new task has made no call, which is all that its outline starts from.
        rw [List.getElem?_append_right hi, List.getElem?_singleton] at ht
        split_ifs at ht with hzero
        have hi' : i = P.tasks.length := by omega
        cases ht
        rintro p ⟨⟩
        refine ⟨NotBegun i, fun e he => ?_, houtline i operation hadmits⟩
        have hlt := hnumbered e he
        omega
    · rcases List.mem_append.mp ht with hold | hnew
      · exact hkept t hold
      · rw [List.mem_singleton] at hnew
        subst hnew
        exact fun h => nomatch h
  | @call i operation call next answer stores htask hanswer =>
    have hi : i < P.tasks.length := (List.getElem?_eq_some_iff.mp htask).1
    obtain ⟨A, hA, hstable, hwalk⟩ := houtlined i _ htask _ rfl
    obtain ⟨hinv', hmove, B, hB, hrest⟩ := hwalk P.toShared answer stores hinv hA hanswer
    refine ⟨hinv', fun e he => ?_, fun j t ht => ?_, fun t ht => ?_⟩
    · rw [List.length_set]
      rcases List.mem_append.mp he with hold | hnew
      · exact hnumbered e hold
      · rw [List.mem_singleton] at hnew
        exact hnew ▸ hi
    · by_cases hj : j = i
      · -- The task that made the call is at the next place of its outline.
        subst hj
        rw [List.getElem?_set_self hi] at ht
        cases ht
        rintro p ⟨⟩
        exact ⟨B, hB, hrest⟩
      · -- What any other task knows is stable.
        rw [List.getElem?_set_ne (Ne.symm hj)] at ht
        intro p hp
        obtain ⟨C, hC, hout⟩ := houtlined j t ht p hp
        exact ⟨C, hout.stable _ _ _ (Ne.symm hj) hinv hinv' hmove hC, hout⟩
    · rcases List.mem_or_eq_of_mem_set ht with hold | rfl
      · exact hkept t hold
      · exact fun h => nomatch h
  | @cancel i operation call next htask hmay =>
    have hi : i < P.tasks.length := (List.getElem?_eq_some_iff.mp htask).1
    -- Nothing that is shared changes, and a task that was cancelled has no outline to keep to.
    refine ⟨hinv, fun e he => ?_, fun j t ht => ?_, fun t ht _ => hmay⟩
    · rw [List.length_set]
      exact hnumbered e he
    · by_cases hj : j = i
      · subst hj
        rw [List.getElem?_set_self hi] at ht
        cases ht
        exact fun p hp => nomatch hp
      · rw [List.getElem?_set_ne (Ne.symm hj)] at ht
        exact houtlined j t ht

/-- If every operation has an outline, the invariant holds in every pool that can be reached. -/
theorem sound [ContentStore κ]
    (houtline : ∀ i operation, r.admits operation →
      R.Outline r i operation (Q i) (NotBegun i) operation.run.run)
    {stores : Stores κ} (hstart : R.inv ⟨stores, []⟩) {P : Pool κ}
    (hreach : Reachable r (Pool.initial stores) P) : R.Sound r Q P := by
  -- Along the steps: a pool in which nothing was begun is sound, and each step keeps it so.
  induction hreach with
  | refl =>
    refine ⟨hstart, fun e he => ?_, fun i t ht => ?_, fun t ht => ?_⟩
    · exact absurd he List.not_mem_nil
    · exact nomatch ht
    · exact absurd ht List.not_mem_nil
  | tail _ hstep ih => exact ih.step houtline hstep

/-- Where nothing is cancelled, a task that is over has a result, and what its outline says in the
    end is known of it. -/
theorem Sound.known_of_isOver [ContentStore κ] {P : Pool κ} (hsound : R.Sound r Q P)
    (hkeep : ¬ r.mayCancel) {i : Nat} {t : Task} (htask : P.tasks[i]? = some t) (hover : t.IsOver) :
    ∃ result, t.rest = some (.done result) ∧ Q i result P.toShared := by
  cases hrest : t.rest with
  | none => exact absurd (hsound.kept t (List.mem_of_getElem? htask) hrest) hkeep
  | some p =>
    obtain ⟨result, rfl⟩ := hover p hrest
    obtain ⟨A, hA, houtline⟩ := hsound.outlined i t htask _ hrest
    exact ⟨result, rfl, houtline.2 P.toShared hsound.inv hA⟩

end Protocol

end ContestPlatform.Interleaving
