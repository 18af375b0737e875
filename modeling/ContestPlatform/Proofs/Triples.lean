import ContestPlatform.Proofs.Footprints
import ContestPlatform.Proofs.Performing
import ContestPlatform.Proofs.TwoRuns

/-!
# What holds after a run

A program is run on stores that nothing else uses. What holds of the stores before is an assertion;
after the run another one holds, which may speak of the value that the program gave, or of the
failure that it ended with. The rules follow the way programs are put together, and those of single
calls say what the stores answer.
-/

namespace ContestPlatform

/-- What may hold of stores. -/
abbrev Assertion (κ : Type) : Type :=
  Stores κ → Prop

/-- What holds after a run: `Q` if it gave a value, and `E` if it failed. -/
def Assertion.Ends {κ ε α : Type} (Q : α → Assertion κ) (E : ε → Assertion κ) :
    Except ε α → Assertion κ
  | .ok a => Q a
  | .error e => E e

open Assertion (Ends)

section Rules

variable {κ ε ε' α β : Type} [ContentStore κ]

/-- A run from stores of which `A` holds gives a value and stores of which `Q` holds, or fails and
    leaves stores of which `E` holds. -/
def Triple (A : Assertion κ) (x : Fallible ε α) (Q : α → Assertion κ) (E : ε → Assertion κ) :
    Prop :=
  ∀ s, A s → Ends Q E (s.run x.run).1 (s.run x.run).2

namespace Triple

variable {A A' : Assertion κ} {Q Q' : α → Assertion κ} {E E' : ε → Assertion κ}

/-! ## Programs in sequence -/

theorem weaken {x : Fallible ε α} (h : Triple A x Q E) (hA : ∀ s, A' s → A s)
    (hQ : ∀ a s, Q a s → Q' a s) (hE : ∀ e s, E e s → E' e s) : Triple A' x Q' E' := by
  intro s hs
  have hend := h s (hA s hs)
  generalize s.run x.run = result at hend ⊢
  rcases result with ⟨e | a, t⟩
  · exact hE e t hend
  · exact hQ a t hend

/-! More may be known before, and less after. -/

theorem pre {x : Fallible ε α} (h : Triple A x Q E) (hA : ∀ s, A' s → A s) : Triple A' x Q E :=
  h.weaken hA (fun _ _ h => h) fun _ _ h => h

theorem post {x : Fallible ε α} (h : Triple A x Q E) (hQ : ∀ a s, Q a s → Q' a s) :
    Triple A x Q' E :=
  h.weaken (fun _ h => h) hQ fun _ _ h => h

theorem failure {x : Fallible ε α} (h : Triple A x Q E) (hE : ∀ e s, E e s → E' e s) :
    Triple A x Q E' :=
  h.weaken (fun _ h => h) (fun _ _ h => h) hE

protected theorem pure {a : α} (h : ∀ s, A s → Q a s) : Triple A (pure a : Fallible ε α) Q E :=
  h

protected theorem throw {e : ε} (h : ∀ s, A s → E e s) : Triple A (throw e : Fallible ε α) Q E :=
  h

/-- The second part of a sequence starts with what holds after the first one. -/
protected theorem bind {x : Fallible ε α} {f : α → Fallible ε β} {W : β → Assertion κ}
    (hx : Triple A x Q E) (hf : ∀ a, Triple (Q a) (f a) W E) : Triple A (x >>= f) W E := by
  intro s hs
  have hend := hx s hs
  rw [Stores.run_bind]
  generalize s.run x.run = result at hend ⊢
  rcases result with ⟨e | a, t⟩
  · exact hend
  · exact hf a t hend

/-- What does not concern the stores may be used of the program. -/
theorem of_fact {p : Prop} {x : Fallible ε α} (h : p → Triple A x Q E) :
    Triple (fun s => p ∧ A s) x Q E :=
  fun s hs => h hs.1 s hs.2

protected theorem map {g : α → β} {W : β → Assertion κ} {x : Fallible ε α}
    (h : Triple A x (fun a => W (g a)) E) : Triple A (g <$> x) W E := by
  rw [map_eq_pure_bind]
  exact h.bind fun a => Triple.pure fun _ hs => hs

/-- Faults may be seen as failures of another kind. -/
theorem adapt {g : ε → ε'} {E' : ε' → Assertion κ} {x : Fallible ε α}
    (h : Triple A x Q fun e => E' (g e)) : Triple A (ExceptT.adapt g x) Q E' := by
  intro s hs
  have hend := h s hs
  have hrun : s.run (ExceptT.adapt g x).run = ((s.run x.run).1.mapError g, (s.run x.run).2) :=
    Program.run_bind Stores.answer x.run (fun a => .done (a.mapError g)) s
  rw [hrun]
  generalize s.run x.run = result at hend ⊢
  rcases result with ⟨e | a, t⟩
  · exact hend
  · exact hend

end Triple

end Rules

namespace Triple

section Calls

variable {κ α : Type} [ContentStore κ] {A : Assertion κ}

/-! ## Single calls -/

protected theorem found {E : Fault → Assertion κ} {fault : Fault} {a? : Option α}
    (h : ∀ s, A s → E fault s) :
    Triple A (Service.found fault a?) (fun a s => A s ∧ a? = some a) E := by
  cases a? with
  | none => exact Triple.throw h
  | some a => exact Triple.pure fun s hs => ⟨hs, rfl⟩

protected theorem now {E : Fault → Assertion κ} :
    Triple A Service.now (fun t s => A s ∧ t = s.now) E :=
  fun _ hs => ⟨hs, rfl⟩

protected theorem freshId {Q : Uuid → Assertion κ} {E : Fault → Assertion κ}
    (h : ∀ s, A s → Q s.ids.draw.1 { s with ids := s.ids.draw.2 }) :
    Triple A Service.freshId Q E :=
  h

protected theorem database {call : Database.Call} {Q : call.Result → Assertion κ} {E : Fault → Assertion κ}
    (h : ∀ s, A s → ∀ answer db, s.database.answer call = (answer, db) →
      Ends Q E answer { s with database := db }) :
    Triple A (Service.database call) Q E :=
  fun s hs => h s hs _ _ rfl

/-- A call that only reads leaves the stores as they are. -/
theorem read {call : Database.Call} {Q : call.Result → Assertion κ} {E : Fault → Assertion κ}
    (hreads : call.reads = true)
    (h : ∀ s, A s → Ends Q E (s.database.answer call).1 s) :
    Triple A (Service.database call) Q E := by
  refine Triple.database fun s hs answer db hanswer => ?_
  have hsame : (s.database.answer call).2 = s.database :=
    (Database.effect_answer s.database call).of_reads hreads
  have hend := h s hs
  rw [hanswer] at hend hsame
  dsimp only at hend hsame
  rw [hsame]
  exact hend

end Calls

section ContentCalls

variable {κ : Type} [LawfulContentStore κ] {A : Assertion κ}

/-- A lawful store answers a call from its texts. -/
protected theorem attempt {call : Content.Call} {Q : call.Answer → Assertion κ} {E : Fault → Assertion κ}
    (h : ∀ s, A s → ∀ content : κ,
      LawfulContentStore.texts content = (s.texts.answer call).2 →
      Q (s.texts.answer call).1 { s with content }) :
    Triple A (Service.attempt call) Q E := by
  intro s hs
  have hend := h s hs (ContentStore.answer s.content call).2
    (LawfulContentStore.texts_answer s.content call)
  rw [← LawfulContentStore.answer_eq] at hend
  exact hend

protected theorem content {call : Content.Call} {Q : call.Result → Assertion κ} {E : Fault → Assertion κ}
    (h : ∀ s, A s → ∀ content : κ,
      LawfulContentStore.texts content = (s.texts.answer call).2 →
      Ends Q (fun fault => E (.content fault)) (s.texts.answer call).1 { s with content }) :
    Triple A (Service.content call) Q E := by
  refine (Triple.attempt (Q := Ends Q fun fault => E (.content fault)) h).bind fun answer => ?_
  cases answer with
  | error fault => exact Triple.throw fun _ hs => hs
  | ok result => exact Triple.pure fun _ hs => hs

end ContentCalls

end Triple

end ContestPlatform
