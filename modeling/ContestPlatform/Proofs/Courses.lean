import ContestPlatform.Proofs.Answers
import ContestPlatform.Proofs.InstantColumns

/-!
# The course of a program that runs alone

A program that runs alone is answered by the stores as it has left them, while the clock goes on and
never back. A call may fail, if calls may, and the program may be cut off between any two of its
calls. What has happened until then is a course. What every reply keeps holds all along every course
(`Course.frame`), so a program changes no more than its calls do. Operations that are performed one
after another make up a succession; what each of them keeps holds after each of them.
-/

namespace ContestPlatform

open Interleaving

/-! ## Replies -/

section Reply

variable {κ : Type} [ContentStore κ] {mayFail : Prop} {s s' : Stores κ}

/-- What the stores may reply to a call of a program that runs alone, and the stores after it. The
    clock may have gone on before; a call that fails has no effect. -/
inductive Reply (mayFail : Prop) (s : Stores κ) (call : Call) : call.Answer → Stores κ → Prop where
  | answered {now : Instant} (hnow : s.now ≤ now) :
      Reply mayFail s call (({ s with now } : Stores κ).answer call).1
        (({ s with now } : Stores κ).answer call).2
  | lost (answer : call.Answer) (hfail : Fails call answer) (hmay : mayFail) :
      Reply mayFail s call answer s

namespace Reply

variable {call : Call} {answer : call.Answer}

theorem now_le (h : Reply mayFail s call answer s') : s.now ≤ s'.now := by
  cases h with
  | answered hnow => cases call <;> exact hnow
  | lost => exact Instant.le_refl _

/-- What the clock shows is the present from then on. -/
theorem now_eq {now : Call.Answer .now} (h : Reply mayFail s .now now s') : s'.now = now := by
  cases h with
  | answered => rfl
  | lost _ hfail => exact hfail.elim

/-- Any call may fail. -/
private def frail : Regime := ⟨fun _ => True, fun _ => True, True⟩

/-- A reply that does not draw an identifier is an answer as a task among others might get it. -/
private theorem alone (h : Reply mayFail s call answer s') (hcall : call ≠ .freshId) :
    Answered frail ⟨{ s with now := s'.now }, []⟩ call answer s' := by
  cases h with
  | answered =>
    cases call with
    | now => exact .clock _
    | freshId => exact absurd rfl hcall
    | database call => exact .database call fun _ => trivial
    | content call => exact .content call fun _ => trivial
  | lost _ hfail => exact .trouble call answer hfail trivial

section Database

variable {call : Database.Call}

theorem effect {answer : call.Answer} (h : Reply mayFail s (.database call) answer s') :
    s.database.Effect call answer s'.database ∧ s'.content = s.content :=
  (h.alone nofun).effect

theorem database_ok {result : call.Result}
    (h : Reply mayFail s (.database call) (.ok result) s') :
    (s.database.answer call).1 = .ok result ∧ s'.database = (s.database.answer call).2 ∧
      s'.content = s.content :=
  (h.alone nofun).database_ok

/-- A call that is not answered by the tables has failed. -/
theorem database_eq {answer : Call.Answer (.database call)}
    (h : Reply mayFail s (.database call) answer s') :
    answer = (s.database.answer call).1 ∨
      mayFail ∧ ∃ fault, answer = .error fault ∧ fault.kind = .infrastructure := by
  cases h with
  | answered => exact Or.inl rfl
  | lost _ hfail hmay => exact Or.inr ⟨hmay, hfail⟩

end Database

/-- Only calls of the database change the tables. -/
theorem database_of_other (h : Reply mayFail s call answer s') (hother : ∀ c, call ≠ .database c) :
    s'.database = s.database := by
  cases h with
  | answered =>
    cases call with
    | database call => exact absurd rfl (hother call)
    | now | freshId | content => rfl
  | lost => rfl

/-- To look at the clock does not change the tables. -/
theorem database_of_now {now : Call.Answer .now} (h : Reply mayFail s .now now s') :
    s'.database = s.database :=
  h.database_of_other fun _ => nofun

end Reply

end Reply

section Texts

variable {κ : Type} [LawfulContentStore κ] {mayFail : Prop} {s s' : Stores κ}

namespace Reply

variable {call : Content.Call}

theorem content_ok {result : call.Result} (h : Reply mayFail s (.content call) (.ok result) s') :
    (s.texts.answer call).1 = .ok result ∧ s'.database = s.database ∧
      s'.texts = (s.texts.answer call).2 :=
  (h.alone nofun).content_ok

theorem content_error {fault : ContentFault}
    (h : Reply mayFail s (.content call) (.error fault) s') :
    s'.database = s.database ∧ s'.texts = s.texts := by
  obtain ⟨hdatabase, htexts, -⟩ := (h.alone nofun).content_error
  exact ⟨hdatabase, htexts⟩

/-- A call of the content store keeps the texts under all keys but its own. -/
theorem texts_other {answer : call.Answer} (h : Reply mayFail s (.content call) answer s')
    {key : String} (hkey : call.key ≠ key) : s'.texts key = s.texts key :=
  (h.alone nofun).texts_other hkey

end Reply

/-- A reply to a call that reads keeps tables and texts. -/
theorem Reply.kept {call : Call} {answer : call.Answer} (h : Reply mayFail s call answer s')
    (hreads : call.reads = true) : Kept s s' := by
  cases h with
  | @answered now hnow =>
    have hclock : Kept s { s with now } := ⟨rfl, rfl⟩
    exact hclock.trans (kept_answer hreads _)
  | lost => exact ⟨rfl, rfl⟩

end Texts

/-! ## Courses -/

section Course

variable {κ α β : Type} [ContentStore κ] {mayFail : Prop} {s t : Stores κ}

/-- A program that starts on `s` has come to where `q` is left of it, and the stores are `t`. -/
inductive Course (mayFail : Prop) :
    StoreProgram α → Stores κ → StoreProgram α → Stores κ → Prop where
  | here (p : StoreProgram α) (s : Stores κ) : Course mayFail p s p s
  | on {call : Call} {next : call.Answer → StoreProgram α} {answer : call.Answer}
      {q : StoreProgram α} {s s' t : Stores κ} (hreply : Reply mayFail s call answer s')
      (hrest : Course mayFail (next answer) s' q t) : Course mayFail (.ask call next) s q t

namespace Course

variable {p q : StoreProgram α}

theorem of_done {a : α} (h : Course mayFail (.done a) s q t) : q = .done a ∧ t = s := by
  cases h
  exact ⟨rfl, rfl⟩

/-- A program that was done after a call has had a reply to it, and was done from there. -/
theorem of_ask {call : Call} {next : call.Answer → StoreProgram α} {a : α}
    (h : Course mayFail (.ask call next) s (.done a) t) : ∃ answer s',
      Reply mayFail s call answer s' ∧ Course mayFail (next answer) s' (.done a) t := by
  cases h with
  | on hreply hrest => exact ⟨_, _, hreply, hrest⟩

/-- The clock does not go back. -/
theorem now_le (h : Course mayFail p s q t) : s.now ≤ t.now := by
  induction h with
  | here => exact Instant.le_refl _
  | on hreply _ ih => exact Instant.le_trans hreply.now_le ih

/-- What the reply to every call of a program keeps holds all along its courses. -/
theorem frame {I : Stores κ → Prop} {P : Call → Prop} (h : Course mayFail p s q t)
    (hp : p.Asks P) (hkeep : ∀ (s : Stores κ) call answer s', P call →
      Reply mayFail s call answer s' → I s → I s') (hs : I s) : I t := by
  -- Along the course: what is left of the program makes no other calls than the program.
  induction h with
  | here => exact hs
  | on hreply _ ih => exact ih (hp.2 _) (hkeep _ _ _ _ hp.1 hreply hs)

/-- A course of a sequence is one of its first part, or one of its second part from where the first
    part was done. -/
theorem of_bind {f : α → StoreProgram β} {q : StoreProgram β}
    (h : Course mayFail (p.bind f) s q t) :
    (∃ p', Course mayFail p s p' t) ∨
      ∃ a m, Course mayFail p s (.done a) m ∧ Course mayFail (f a) m q t := by
  -- On the first part, since the course may stop after any of its calls.
  induction p generalizing s with
  | done a => exact Or.inr ⟨a, s, .here _ s, h⟩
  | ask call next ih =>
    cases h with
    | here => exact Or.inl ⟨_, .here _ _⟩
    | on hreply hrest =>
      rcases ih _ hrest with ⟨p', hfirst⟩ | ⟨a, m, hfirst, hsecond⟩
      · exact Or.inl ⟨p', .on hreply hfirst⟩
      · exact Or.inr ⟨a, m, .on hreply hfirst, hsecond⟩

theorem bind (h : Course mayFail p s q t) (f : α → StoreProgram β) :
    Course mayFail (p.bind f) s (q.bind f) t := by
  induction h with
  | here => exact .here _ _
  | on hreply _ ih => exact .on hreply ih

/-- To run a program is a course of it: the clock stands still and no call fails. -/
theorem of_run (p : StoreProgram α) (s : Stores κ) :
    Course mayFail p s (.done (s.run p).1) (s.run p).2 := by
  induction p generalizing s with
  | done a => exact .here _ s
  | ask call next ih => exact .on (.answered (Instant.le_refl s.now)) (ih _ _)

theorem of_perform (mayFail : Prop) {x : Service α} {result : Except Fault α}
    (h : s.perform x = (result, t)) : Course mayFail x.run s (.done result) t := by
  have hrun : Course mayFail x.run s _ _ := of_run x.run s
  have hresult : s.run x.run = (result, t) := h
  rw [hresult] at hrun
  exact hrun

/-- The clock may as well have gone on before the first call. -/
theorem of_run_at {call : Call} {next : call.Answer → StoreProgram α} (now : Instant)
    (hnow : s.now ≤ now) :
    Course mayFail (.ask call next) s
      (.done (({ s with now } : Stores κ).run (.ask call next)).1)
      (({ s with now } : Stores κ).run (.ask call next)).2 :=
  .on (.answered hnow) (.of_run _ _)

end Course

end Course

/-! ## Operations that succeed -/

section Success

variable {κ α β : Type} [ContentStore κ] {mayFail : Prop} {s t : Stores κ}

namespace Course

/-- A sequence that was done was done with its first part, and then with its second one. -/
theorem of_bind_done {p : StoreProgram α} {f : α → StoreProgram β} {b : β}
    (h : Course mayFail (p.bind f) s (.done b) t) :
    ∃ a m, Course mayFail p s (.done a) m ∧ Course mayFail (f a) m (.done b) t := by
  induction p generalizing s with
  | done a => exact ⟨a, s, .here _ s, h⟩
  | ask call next ih =>
    cases h with
    | on hreply hrest =>
      obtain ⟨a, m, hfirst, hsecond⟩ := ih _ hrest
      exact ⟨a, m, .on hreply hfirst, hsecond⟩

/-- What succeeds has succeeded in its first part. -/
theorem of_andThen {x : Service α} {f : α → Service β} {b : β}
    (h : Course mayFail (x >>= f).run s (.done (.ok b)) t) :
    ∃ a m, Course mayFail x.run s (.done (.ok a)) m ∧
      Course mayFail (f a).run m (.done (.ok b)) t := by
  obtain ⟨result, m, hfirst, hsecond⟩ := of_bind_done h
  cases result with
  | error fault => exact nomatch hsecond.of_done.1
  | ok a => exact ⟨a, m, hfirst, hsecond⟩

theorem of_pure {a b : α} (h : Course mayFail (pure a : Service α).run s (.done (.ok b)) t) :
    b = a ∧ t = s := by
  obtain ⟨hresult, rfl⟩ := h.of_done
  cases hresult
  exact ⟨rfl, rfl⟩

theorem not_throw {fault : Fault} {b : α}
    (h : Course mayFail (throw fault : Service α).run s (.done (.ok b)) t) : False :=
  nomatch h.of_done.1

theorem of_database {call : Database.Call} {result : call.Result}
    (h : Course mayFail (Service.database call).run s (.done (.ok result)) t) :
    (s.database.answer call).1 = .ok result ∧ t.database = (s.database.answer call).2 ∧
      t.content = s.content := by
  obtain ⟨answer, m, hreply, hend⟩ := h.of_ask
  obtain ⟨hresult, rfl⟩ := hend.of_done
  cases hresult
  exact hreply.database_ok

theorem of_found {fault : Fault} {a? : Option α} {a : α}
    (h : Course mayFail (Service.found fault a?).run s (.done (.ok a)) t) : a? = some a ∧ t = s := by
  cases a? with
  | none => exact (not_throw h).elim
  | some found =>
    obtain ⟨rfl, rfl⟩ := of_pure h
    exact ⟨rfl, rfl⟩

end Course

end Success

section SuccessWithTexts

variable {κ : Type} [LawfulContentStore κ] {mayFail : Prop} {s t : Stores κ}

namespace Course

theorem of_freshId {id : Uuid} (h : Course mayFail Service.freshId.run s (.done (.ok id)) t) :
    Kept s t := by
  obtain ⟨answer, m, hreply, hend⟩ := of_ask h
  obtain ⟨-, rfl⟩ := hend.of_done
  exact hreply.kept rfl

theorem of_content {call : Content.Call} {result : call.Result}
    (h : Course mayFail (Service.content call).run s (.done (.ok result)) t) :
    (s.texts.answer call).1 = .ok result ∧ t.database = s.database ∧
      t.texts = (s.texts.answer call).2 := by
  obtain ⟨answer, m, hattempt, hend⟩ := of_andThen h
  obtain ⟨answer', m', hreply, hlast⟩ := of_ask hattempt
  obtain ⟨hanswer, rfl⟩ := hlast.of_done
  cases hanswer
  cases answer with
  | error fault => exact (not_throw hend).elim
  | ok found =>
    obtain ⟨rfl, rfl⟩ := of_pure hend
    exact hreply.content_ok

end Course

end SuccessWithTexts

/-! ## What programs preserve -/

section Preserves

variable {κ ε α β : Type} [ContentStore κ] {mayFail : Prop} {I : Stores κ → Prop} {s : Stores κ}

/-- `I` holds all along every course of a program that starts on `s`. -/
def Along (mayFail : Prop) (I : Stores κ → Prop) (p : StoreProgram α) (s : Stores κ) : Prop :=
  ∀ q t, Course mayFail p s q t → I t

/-- Where `I` holds before a program, it holds all along every course of it. -/
def Preserves (mayFail : Prop) (I : Stores κ → Prop) (p : StoreProgram α) : Prop :=
  ∀ s, I s → Along mayFail I p s

theorem Along.done {a : α} (hs : I s) : Along mayFail I (.done a) s := by
  intro q t h
  rw [h.of_done.2]
  exact hs

theorem Along.ask {call : Call} {next : call.Answer → StoreProgram α} (hs : I s)
    (hnext : ∀ answer s', Reply mayFail s call answer s' → Along mayFail I (next answer) s') :
    Along mayFail I (.ask call next) s := by
  intro q t h
  cases h with
  | here => exact hs
  | on hreply hrest => exact hnext _ _ hreply _ _ hrest

namespace Preserves

protected theorem done (a : α) : Preserves mayFail I (.done a) :=
  fun _ hs => .done hs

protected theorem bind {p : StoreProgram α} {f : α → StoreProgram β} (h : Preserves mayFail I p)
    (hf : ∀ a, Preserves mayFail I (f a)) : Preserves mayFail I (p.bind f) := by
  intro s hs q t hcourse
  rcases hcourse.of_bind with ⟨p', hfirst⟩ | ⟨a, m, hfirst, hsecond⟩
  · exact h s hs p' t hfirst
  · exact hf a m (h s hs _ m hfirst) q t hsecond

/-- A program of which every call is replied to with `I` kept. -/
theorem of_asks {p : StoreProgram α} {P : Call → Prop} (hp : p.Asks P)
    (hkeep : ∀ (s : Stores κ) call answer s', P call →
      Reply mayFail s call answer s' → I s → I s') : Preserves mayFail I p :=
  fun _ hs _ _ hcourse => hcourse.frame hp hkeep hs

/-! ### Programs that may fail -/

variable {x : ExceptT ε StoreProgram α}

theorem andThen {f : α → ExceptT ε StoreProgram β} (h : Preserves mayFail I x.run)
    (hf : ∀ a, Preserves mayFail I (f a).run) : Preserves mayFail I (x >>= f).run := by
  refine Preserves.bind h fun result => ?_
  cases result with
  | error e => exact .done _
  | ok a => exact hf a

theorem adapt {ε' : Type} {g : ε → ε'} (h : Preserves mayFail I x.run) :
    Preserves mayFail I (ExceptT.adapt g x).run :=
  Preserves.bind h fun _ => .done _

/-- What a result is written as in the end does not matter. -/
theorem of_map {g : α → β} (h : Preserves mayFail I (g <$> x).run) :
    Preserves mayFail I x.run :=
  fun s hs _ t hcourse => h s hs _ t (hcourse.bind _)

end Preserves

end Preserves

/-! ## Successions -/

/-- An operation that was performed, with its result and the stores after it. -/
structure Performed (κ : Type) where
  operation : Operation
  result : Except Fault Json
  stores : Stores κ

namespace Performed

variable {κ : Type}

/-- The operation has failed, so it has changed nothing of what it is about. -/
def Failed (d : Performed κ) : Prop :=
  ∃ fault, d.result = .error fault

/-- The operation has failed because the stores did. -/
def Broken (d : Performed κ) : Prop :=
  ∃ fault, d.result = .error fault ∧ fault.kind = .infrastructure

end Performed

/-- Operations that are performed one after another, each one to its end. -/
inductive Succession {κ : Type} [ContentStore κ] (mayFail : Prop) :
    Stores κ → List (Performed κ) → Prop where
  | nil (s : Stores κ) : Succession mayFail s []
  | cons {s t : Stores κ} {operation : Operation} {result : Except Fault Json}
      {later : List (Performed κ)}
      (hcourse : Course mayFail operation.run.run s (.done result) t)
      (hlater : Succession mayFail t later) :
      Succession mayFail s (⟨operation, result, t⟩ :: later)

namespace Succession

variable {κ : Type} [ContentStore κ] {mayFail : Prop} {s : Stores κ} {trace : List (Performed κ)}

/-- What every operation keeps holds after every operation, and each one is performed while it
    holds. -/
theorem frame {I : Stores κ → Prop} {P : Performed κ → Prop} (h : Succession mayFail s trace)
    (hP : ∀ d ∈ trace, P d) (hkeep : ∀ (s : Stores κ) d, P d → I s →
      Course mayFail d.operation.run.run s (.done d.result) d.stores → I d.stores) (hs : I s) :
    ∀ d ∈ trace, I d.stores ∧
      ∃ s, I s ∧ Course mayFail d.operation.run.run s (.done d.result) d.stores := by
  induction h with
  | nil => exact fun d hd => absurd hd List.not_mem_nil
  | @cons s t operation result later hcourse _ ih =>
    have ht : I t := hkeep s ⟨operation, result, t⟩ (hP _ List.mem_cons_self) hs hcourse
    intro d hd
    rcases List.mem_cons.mp hd with rfl | hd
    · exact ⟨ht, s, hs, hcourse⟩
    · exact ih (fun d hd => hP d (List.mem_cons_of_mem _ hd)) ht d hd

end Succession

end ContestPlatform
