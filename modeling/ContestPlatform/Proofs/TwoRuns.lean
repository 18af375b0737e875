import ContestPlatform.Service.Stores

/-!
# Two runs side by side

Two programs are run, each on stores of its own. What holds of the two stores before is a relation,
and so is what holds of the two results and the two stores after. A relation that every call keeps,
the bond, is what is left of the stores if the programs fail; then they fail in the same way.

The rules follow the way programs are put together: the runs of two sequences agree if their parts
do.
-/

namespace ContestPlatform

/-- A relation between the stores of two runs. -/
abbrev Bond (κ : Type) : Type :=
  Stores κ → Stores κ → Prop

/-- A program that gives a value or fails. -/
abbrev Fallible (ε α : Type) : Type :=
  ExceptT ε StoreProgram α

namespace TwoRuns

variable {κ ε ε' α β : Type}

/-- What is known after two runs: both gave values, or both failed in the same way. -/
def Ends (I : Bond κ) (Q : α → α → Bond κ) : Except ε α → Except ε α → Bond κ
  | .ok a, .ok a' => Q a a'
  | .error e, .error e' => fun s s' => e = e' ∧ I s s'
  | _, _ => fun _ _ => False

variable [ContentStore κ]

/-- Runs of two programs from stores that `A` relates end as `Q` says, or fail in the same way with
    stores that the bond relates. -/
def Agree (I A : Bond κ) (Q : α → α → Bond κ) (x x' : Fallible ε α) : Prop :=
  ∀ s s', A s s' →
    Ends I Q (s.run x.run).1 (s'.run x'.run).1 (s.run x.run).2 (s'.run x'.run).2

/-- Two runs of one program give the same. -/
abbrev Same (I A B : Bond κ) (x : Fallible ε α) : Prop :=
  Agree I A (fun a a' s s' => a = a' ∧ B s s') x x

variable {I A A' B : Bond κ} {Q Q' : α → α → Bond κ}

/-! ## Rules -/

theorem Agree.weaken {x x' : Fallible ε α} (h : Agree I A Q x x') (hA : ∀ s s', A' s s' → A s s')
    (hQ : ∀ a a' s s', Q a a' s s' → Q' a a' s s') : Agree I A' Q' x x' := by
  intro s s' hs
  have hend := h s s' (hA s s' hs)
  generalize s.run x.run = end₁ at hend ⊢
  generalize s'.run x'.run = end₂ at hend ⊢
  rcases end₁ with ⟨e | a, t⟩ <;> rcases end₂ with ⟨e' | a', t'⟩
  · exact hend
  · exact hend
  · exact hend
  · exact hQ a a' t t' hend

theorem Same.mono {x : Fallible ε α} (h : Same I A B x) (hA : ∀ s s', A' s s' → A s s') :
    Same I A' B x :=
  Agree.weaken h hA fun _ _ _ _ hend => hend

theorem Agree.pure {a a' : α} (h : ∀ s s', A s s' → Q a a' s s') :
    Agree I A Q (pure a : Fallible ε α) (pure a') :=
  h

theorem Agree.throw {e : ε} (h : ∀ s s', A s s' → I s s') :
    Agree I A Q (throw e : Fallible ε α) (throw e) :=
  fun s s' hs => ⟨rfl, h s s' hs⟩

/-- Two sequences agree if their parts do. -/
theorem Agree.bind {x x' : Fallible ε α} {f f' : α → Fallible ε β} {W : β → β → Bond κ}
    (hx : Agree I A Q x x') (hf : ∀ a a', Agree I (Q a a') W (f a) (f' a')) :
    Agree I A W (x >>= f) (x' >>= f') := by
  intro s s' hs
  have hend := hx s s' hs
  -- The run of a sequence starts where the run of its first part ends.
  have hrun : ∀ (t : Stores κ) (y : Fallible ε α) (g : α → Fallible ε β),
      t.run (y >>= g).run =
        (t.run y.run).2.run (ExceptT.bindCont g (t.run y.run).1) := by
    intro t y g
    exact Program.run_bind Stores.answer y.run (ExceptT.bindCont g) t
  rw [hrun, hrun]
  generalize s.run x.run = end₁ at hend ⊢
  generalize s'.run x'.run = end₂ at hend ⊢
  rcases end₁ with ⟨e | a, t⟩ <;> rcases end₂ with ⟨e' | a', t'⟩
  · exact hend
  -- One of the first parts failed and the other did not, which agreement excludes.
  · exact hend.elim
  · exact hend.elim
  · exact hf a a' t t' hend

/-- What only concerns the values may be used of the programs that go on with them. -/
theorem Agree.of_fact {p : Prop} {x x' : Fallible ε α} (h : p → Agree I A Q x x') :
    Agree I (fun s s' => p ∧ A s s') Q x x' :=
  fun s s' hs => h hs.1 s s' hs.2

/-- Two runs of a sequence give the same if those of its parts do. -/
theorem Same.bind {C : Bond κ} {x : Fallible ε α} {f : α → Fallible ε β} (hx : Same I A B x)
    (hf : ∀ a, Same I B C (f a)) : Same I A C (x >>= f) := by
  refine Agree.bind hx fun a a' => Agree.of_fact fun heq => ?_
  subst heq
  exact hf a

theorem Same.pure {a : α} (h : ∀ s s', A s s' → B s s') : Same I A B (pure a : Fallible ε α) :=
  Agree.pure fun s s' hs => ⟨rfl, h s s' hs⟩

theorem Same.throw {e : ε} (h : ∀ s s', A s s' → I s s') : Same I A B (throw e : Fallible ε α) :=
  Agree.throw h

theorem Same.map {g : α → β} {x : Fallible ε α} (hx : Same I A B x) : Same I A B (g <$> x) := by
  rw [map_eq_pure_bind]
  exact hx.bind fun a => Same.pure fun _ _ h => h

/-- Faults may be seen as failures of another kind. -/
theorem Agree.adapt {g : ε → ε'} {x x' : Fallible ε α} (h : Agree I A Q x x') :
    Agree I A Q (ExceptT.adapt g x) (ExceptT.adapt g x') := by
  intro s s' hs
  have hend := h s s' hs
  have hrun : ∀ (t : Stores κ) (y : Fallible ε α), t.run (ExceptT.adapt g y).run =
      ((t.run y.run).1.mapError g, (t.run y.run).2) := by
    intro t y
    exact Program.run_bind Stores.answer y.run (fun a => .done (a.mapError g)) t
  rw [hrun, hrun]
  generalize s.run x.run = end₁ at hend ⊢
  generalize s'.run x'.run = end₂ at hend ⊢
  rcases end₁ with ⟨e | a, t⟩ <;> rcases end₂ with ⟨e' | a', t'⟩
  · exact ⟨congrArg g hend.1, hend.2⟩
  · exact hend.elim
  · exact hend.elim
  · exact hend

/-- Two runs of a call give the same if the stores answer the same. -/
theorem Agree.call (call : Call) (convert : call.Answer → Except ε α)
    (h : ∀ s s', A s s' → Ends I Q (convert (s.answer call).1) (convert (s'.answer call).1)
      (s.answer call).2 (s'.answer call).2) :
    Agree I A Q (ExceptT.mk (.ask call fun a => .done (convert a)))
      (ExceptT.mk (.ask call fun a => .done (convert a))) :=
  h

end TwoRuns

end ContestPlatform
