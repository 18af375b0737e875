import ContestPlatform.Proofs.Footprints
import ContestPlatform.Proofs.Interleaving

/-!
# What the tasks of a pool have done

The log of a pool holds the calls of all tasks in the order in which they were answered. What one
task did is the part of the log that is its own, and its program decides where it is after that:
`Traced` says so of every pool that can be reached, for tasks that were cancelled as well. With
`Reachable.invariant` a property of what is shared is shown call by call, and each time it is known
which operation makes the call and what that operation was answered before.
-/

namespace ContestPlatform.Interleaving

/-- A call with its answer. -/
structure Exchange where
  call : Call
  answer : call.Answer

/-- What is left of a program after calls with their answers. -/
inductive Leads {α : Type} : StoreProgram α → List Exchange → StoreProgram α → Prop where
  | here (p : StoreProgram α) : Leads p [] p
  | on {call : Call} {next : call.Answer → StoreProgram α} {answer : call.Answer}
      {exchanges : List Exchange} {p : StoreProgram α} (h : Leads (next answer) exchanges p) :
      Leads (.ask call next) (⟨call, answer⟩ :: exchanges) p

namespace Leads

variable {α : Type} {p : StoreProgram α} {exchanges : List Exchange}

theorem snoc {call : Call} {next : call.Answer → StoreProgram α}
    (h : Leads p exchanges (.ask call next)) (answer : call.Answer) :
    Leads p (exchanges ++ [⟨call, answer⟩]) (next answer) := by
  -- The last call is put behind all others, so it is met at the end of the path.
  generalize hq : Program.ask call next = q at h
  induction h with
  | here =>
    subst hq
    exact .on (.here _)
  | on _ ih => exact .on (ih hq)

theorem of_done {a : α} {q : StoreProgram α} (h : Leads (.done a) exchanges q) :
    exchanges = [] ∧ q = .done a := by
  cases h
  exact ⟨rfl, rfl⟩

theorem of_ask {call : Call} {next : call.Answer → StoreProgram α} {a : α}
    (h : Leads (.ask call next) exchanges (.done a)) :
    ∃ answer rest, exchanges = ⟨call, answer⟩ :: rest ∧ Leads (next answer) rest (.done a) := by
  cases h with
  | on h => exact ⟨_, _, rfl, h⟩

/-- A program asks the same kinds of calls wherever it was led. -/
theorem asks {P : Call → Prop} {q : StoreProgram α} (h : Leads p exchanges q) (hp : p.Asks P) :
    q.Asks P := by
  induction h with
  | here => exact hp
  | on _ ih =>
    -- Whatever the first call was answered, the rest asks the same kinds of calls.
    exact ih (hp.2 _)

/-- What was asked on the way is of the same kinds of calls. -/
theorem asked {P : Call → Prop} {q : StoreProgram α} (h : Leads p exchanges q) (hp : p.Asks P)
    {x : Exchange} (hx : x ∈ exchanges) : P x.call := by
  induction h with
  | here => exact absurd hx List.not_mem_nil
  | on _ ih =>
    rcases List.mem_cons.mp hx with rfl | hx
    · exact hp.1
    · exact ih (hp.2 _) hx

theorem mayAsk {operation : Operation} {call : Call}
    {next : call.Answer → StoreProgram (Except Fault Json)}
    (h : Leads operation.run.run exchanges (.ask call next)) : operation.MayAsk call :=
  (h.asks operation.within_run).1

end Leads

/-- After an exchange that satisfies `P` the program is done. -/
def EndsAfter {α : Type} (P : Exchange → Prop) : StoreProgram α → Prop
  | .done _ => True
  | .ask call next => ∀ answer,
    (P ⟨call, answer⟩ → ∃ a, next answer = .done a) ∧ EndsAfter P (next answer)

namespace EndsAfter

variable {α : Type} {P : Exchange → Prop} {p q : StoreProgram α}

theorem of_asks {P' : Call → Prop} (hp : p.Asks P')
    (hnever : ∀ call answer, P' call → ¬ P ⟨call, answer⟩) : EndsAfter P p := by
  induction p with
  | done a => trivial
  | ask call next ih =>
    -- No exchange of this program satisfies `P`, so there is nothing to end after.
    exact fun answer => ⟨fun h => absurd h (hnever call answer hp.1), ih answer (hp.2 answer)⟩

theorem done_of_leads {exchanges : List Exchange} (hp : EndsAfter P p)
    (h : Leads p exchanges q) {x : Exchange} (hx : x ∈ exchanges) (hPx : P x) :
    ∃ a, q = .done a := by
  induction h with
  | here => exact absurd hx List.not_mem_nil
  | @on call next answer exchanges q hrest ih =>
    rcases List.mem_cons.mp hx with rfl | hx
    · -- The program is done then, so there are no further exchanges.
      obtain ⟨a, hdone⟩ := (hp answer).1 hPx
      rw [hdone] at hrest
      exact ⟨a, hrest.of_done.2⟩
    · exact ih (hp answer).2 hx

end EndsAfter

/-- The call and the answer of an event. -/
def Event.exchange (e : Event) : Exchange :=
  ⟨e.call, e.answer⟩

/-- What a task was answered, in the order of its calls. -/
def exchangesOf (log : List Event) (i : Nat) : List Exchange :=
  (log.filter fun e => e.task = i).map Event.exchange

section Exchanges

variable {log : List Event} {e : Event} {i : Nat}

theorem exchangesOf_append_self (h : e.task = i) :
    exchangesOf (log ++ [e]) i = exchangesOf log i ++ [e.exchange] := by
  simp [exchangesOf, h]

theorem exchangesOf_append_ne (h : e.task ≠ i) :
    exchangesOf (log ++ [e]) i = exchangesOf log i := by
  simp [exchangesOf, h]

/-- What is read off a log event by event grows with each event. -/
theorem filterMap_concat {α : Type} (f : Event → Option α) (log : List Event) (e : Event) :
    (log ++ [e]).filterMap f = log.filterMap f ++ (f e).toList := by
  rw [List.filterMap_append]
  cases h : f e <;> simp [h]

theorem mem_exchangesOf {x : Exchange} :
    x ∈ exchangesOf log i ↔ ∃ e ∈ log, e.task = i ∧ e.exchange = x := by
  simp [exchangesOf, and_assoc]

/-- What a task was told that it drew, it drew. -/
theorem drew_of_exchange {id : Uuid} (h : ⟨.freshId, id⟩ ∈ exchangesOf log i) : Drew log i id := by
  obtain ⟨e, he, htask, hexchange⟩ := mem_exchangesOf.mp h
  obtain ⟨task, operation, call, answer⟩ := e
  cases hexchange
  exact ⟨_, he, htask, rfl⟩

end Exchanges

section Traced

variable {κ : Type} {r : Regime}

/-- The log of a pool tells what its tasks have done. -/
structure Traced (r : Regime) (P : Pool κ) : Prop where
  admitted : ∀ t ∈ P.tasks, r.admits t.operation
  /-- Every event belongs to a task and bears its operation. -/
  owned : ∀ e ∈ P.log, ∃ t, P.tasks[e.task]? = some t ∧ t.operation = e.operation
  /-- A task is where its answers have led it, or was cancelled there. -/
  led : ∀ i t, P.tasks[i]? = some t →
    ∃ p, Leads t.operation.run.run (exchangesOf P.log i) p ∧ ∀ q ∈ t.rest, q = p

namespace Traced

variable {P : Pool κ} (h : Traced r P)

include h

theorem leads {i : Nat} {operation : Operation} {p : StoreProgram (Except Fault Json)}
    (htask : P.tasks[i]? = some ⟨operation, some p⟩) :
    Leads operation.run.run (exchangesOf P.log i) p := by
  obtain ⟨q, hq, hrest⟩ := h.led i _ htask
  exact hrest p rfl ▸ hq

theorem operation_eq {t : Task} {e : Event} (he : e ∈ P.log) (ht : P.tasks[e.task]? = some t) :
    e.operation = t.operation := by
  obtain ⟨t', ht', hoperation⟩ := h.owned e he
  rw [ht] at ht'
  cases ht'
  exact hoperation.symm

/-- A task that was not begun has made no calls. -/
theorem exchangesOf_eq_nil {i : Nat} (hi : P.tasks.length ≤ i) : exchangesOf P.log i = [] := by
  refine List.eq_nil_iff_forall_not_mem.mpr fun x hx => ?_
  obtain ⟨e, he, rfl, -⟩ := mem_exchangesOf.mp hx
  obtain ⟨t, ht, -⟩ := h.owned e he
  rw [List.getElem?_eq_none hi] at ht
  exact nomatch ht

theorem begin_ {operation : Operation} (hadmits : r.admits operation) :
    Traced r { P with tasks := P.tasks ++ [⟨operation, some operation.run.run⟩] } := by
  refine ⟨fun t ht => ?_, fun e he => ?_, fun i t ht => ?_⟩
  · rcases List.mem_append.mp ht with hold | hnew
    · exact h.admitted t hold
    · rw [List.mem_singleton.mp hnew]
      exact hadmits
  · obtain ⟨t, ht, hop⟩ := h.owned e he
    have hlt := (List.getElem?_eq_some_iff.mp ht).1
    exact ⟨t, (List.getElem?_append_left hlt).trans ht, hop⟩
  · rcases Nat.lt_or_ge i P.tasks.length with hi | hi
    · rw [List.getElem?_append_left hi] at ht
      exact h.led i t ht
    · -- The new task is at the start of its program.
      have hnone : exchangesOf P.log i = [] := h.exchangesOf_eq_nil hi
      rw [List.getElem?_append_right hi, List.getElem?_singleton] at ht
      split_ifs at ht
      cases ht
      exact ⟨operation.run.run, hnone ▸ .here _, fun q hq => (Option.some.inj hq).symm⟩

/-- One task goes on or is given up; what the others have done stays. -/
theorem set {i : Nat} {operation : Operation} {rest : Option (StoreProgram (Except Fault Json))}
    (htask : P.tasks[i]? = some ⟨operation, rest⟩) {s : Shared κ}
    {rest' : Option (StoreProgram (Except Fault Json))}
    (hlog : ∀ e ∈ s.log, e ∈ P.log ∨ e.task = i ∧ e.operation = operation)
    (hothers : ∀ j, j ≠ i → exchangesOf s.log j = exchangesOf P.log j)
    (hled : ∃ p, Leads operation.run.run (exchangesOf s.log i) p ∧ ∀ q ∈ rest', q = p) :
    Traced r ⟨s, P.tasks.set i ⟨operation, rest'⟩⟩ := by
  have hself : (P.tasks.set i ⟨operation, rest'⟩)[i]? = some ⟨operation, rest'⟩ :=
    List.getElem?_set_self (List.getElem?_eq_some_iff.mp htask).1
  refine ⟨fun t ht => ?_, fun e he => ?_, fun j t ht => ?_⟩
  · rcases List.mem_or_eq_of_mem_set ht with hold | rfl
    · exact h.admitted t hold
    · exact h.admitted ⟨operation, rest⟩ (List.mem_of_getElem? htask)
  · -- An event of the task bears its operation; all others are old.
    by_cases hj : e.task = i
    · refine ⟨⟨operation, rest'⟩, hj.symm ▸ hself, ?_⟩
      rcases hlog e he with hold | ⟨-, hop⟩
      · obtain ⟨t, ht, hop⟩ := h.owned e hold
        rw [hj, htask] at ht
        cases ht
        exact hop
      · exact hop.symm
    · rcases hlog e he with hold | ⟨hi, -⟩
      · obtain ⟨t, ht, hop⟩ := h.owned e hold
        exact ⟨t, (List.getElem?_set_ne (Ne.symm hj)).trans ht, hop⟩
      · exact absurd hi hj
  · by_cases hj : j = i
    · subst hj
      obtain rfl := Option.some.inj (hself.symm.trans ht)
      exact hled
    · rw [List.getElem?_set_ne (Ne.symm hj)] at ht
      exact hothers j hj ▸ h.led j t ht

theorem step [ContentStore κ] {P' : Pool κ} (hstep : Step r P P') : Traced r P' := by
  cases hstep with
  | begin_ operation hadmits => exact h.begin_ hadmits
  | @call i operation call next answer stores htask hanswer =>
    refine h.set htask (fun e he => ?_) (fun j hj => exchangesOf_append_ne hj.symm) ?_
    · rcases List.mem_append.mp he with hold | hnew
      · exact Or.inl hold
      · rw [List.mem_singleton.mp hnew]
        exact Or.inr ⟨rfl, rfl⟩
    · -- One more answer leads the task on.
      rw [Shared.after_log, exchangesOf_append_self rfl]
      exact ⟨next answer, (h.leads htask).snoc answer, fun q hq => (Option.some.inj hq).symm⟩
  | cancel htask hmay =>
    -- What a task was answered stays when the task is given up.
    exact h.set htask (fun e he => Or.inl he) (fun j _ => rfl)
      ⟨_, h.leads htask, fun q hq => nomatch hq⟩

end Traced

end Traced

namespace Reachable

variable {κ : Type} [ContentStore κ] {r : Regime} {stores : Stores κ} {P : Pool κ}

theorem traced (h : Reachable r (Pool.initial stores) P) : Traced r P := by
  induction h with
  | refl =>
    exact ⟨fun t ht => absurd ht List.not_mem_nil, fun e he => absurd he List.not_mem_nil,
      fun i t ht => nomatch ht⟩
  | tail _ hstep ih => exact ih.step hstep

/-- What every answered call keeps holds of what is shared at any moment. -/
theorem invariant {I : Shared κ → Prop} (hstart : I ⟨stores, []⟩)
    (hcall : ∀ s i operation call next answer stores', I s → r.admits operation →
      Leads operation.run.run (exchangesOf s.log i) (.ask call next) →
      Answered r s call answer stores' → I (s.after ⟨i, operation, call, answer⟩ stores'))
    (h : Reachable r (Pool.initial stores) P) : I P.toShared := by
  induction h with
  | refl => exact hstart
  | tail hreach hstep ih =>
    have htraced := traced hreach
    -- To begin a task or to give it up changes nothing that is shared.
    cases hstep with
    | begin_ operation hadmits => exact ih
    | call htask hanswer =>
      have hadmits := htraced.admitted _ (List.mem_of_getElem? htask)
      exact hcall _ _ _ _ _ _ _ ih hadmits (htraced.leads htask) hanswer
    | cancel htask hmay => exact ih

end Reachable

end ContestPlatform.Interleaving
