import ContestPlatform.Proofs.Footprints
import ContestPlatform.Proofs.Interleaving

/-!
# What an answer tells

An operation that runs with others sees nothing of the stores but the answers to its own calls. A
call that was answered with a result was answered by the stores as they were; a call that failed had
no effect.
-/

namespace ContestPlatform

namespace Database

/-- A call that fails changes nothing. -/
theorem answer_error {db : Database} {call : Call} {fault : Fault}
    (h : (db.answer call).1 = .error fault) : (db.answer call).2 = db := by
  have heffect := effect_answer db call
  rw [h] at heffect
  exact heffect.of_error

end Database

namespace Interleaving.Answered

section Database

variable {κ : Type} [ContentStore κ] {r : Regime} {s : Shared κ} {call : Database.Call}
  {stores : Stores κ}

/-- A call of the database that succeeds is answered by the tables. -/
theorem database_ok {result : call.Result}
    (h : Answered r s (.database call) (.ok result) stores) :
    (s.stores.database.answer call).1 = .ok result ∧
      stores.database = (s.stores.database.answer call).2 ∧
      stores.content = s.stores.content := by
  generalize hanswer : (Except.ok result : Call.Answer (.database call)) = answer at h
  cases h with
  | database _ _ => exact ⟨rfl, rfl, rfl⟩
  | trouble _ _ hfail _ =>
    subst hanswer
    obtain ⟨fault, heq, -⟩ := hfail
    exact nomatch heq

/-- A call of the database that fails has no effect. It may fail, or the tables refuse it for
    another reason than that they do not work. -/
theorem database_error {fault : Fault} (h : Answered r s (.database call) (.error fault) stores) :
    stores = s.stores ∧ (r.mayFail (.database call) ∨
      (s.stores.database.answer call).1 = .error fault ∧ fault.kind ≠ .infrastructure) := by
  -- Either the tables refused the call themselves, or it never got to them.
  generalize hanswer : (Except.error fault : Call.Answer (.database call)) = answer at h
  cases h with
  | database _ hmay =>
    have herror : (s.stores.database.answer call).1 = .error fault := hanswer.symm
    have hsame : (s.stores.answer (.database call)).2 = s.stores := by
      simp only [Stores.answer, Database.answer_error herror]
    refine ⟨hsame, ?_⟩
    by_cases hkind : fault.kind = .infrastructure
    · exact Or.inl (hmay ⟨fault, herror, hkind⟩)
    · exact Or.inr ⟨rfl, hkind⟩
  | trouble _ _ _ hmay => exact ⟨rfl, Or.inl hmay⟩

theorem problems_eq {answer : call.Answer} (h : Answered r s (.database call) answer stores)
    (hkeep : ∀ db : Database, (db.answer call).2.problems = db.problems) :
    stores.content = s.stores.content ∧
      stores.database.problems = s.stores.database.problems := by
  cases h with
  | database _ _ => exact ⟨rfl, hkeep s.stores.database⟩
  | trouble _ _ _ _ => exact ⟨rfl, rfl⟩

/-- What a call of the database does is an effect, whether the tables answered it or it failed. -/
theorem effect {answer : call.Answer} (h : Answered r s (.database call) answer stores) :
    s.stores.database.Effect call answer stores.database ∧ stores.content = s.stores.content := by
  cases h with
  | database _ _ => exact ⟨Database.effect_answer s.stores.database call, rfl⟩
  | trouble _ _ hfail _ =>
    obtain ⟨fault, rfl, hkind⟩ := hfail
    exact ⟨.refused fault hkind, rfl⟩

/-- A call of the database that did not fail was answered by the tables. -/
theorem database_of_not_fails {answer : call.Answer}
    (h : Answered r s (.database call) answer stores) (hok : ¬ Fails (.database call) answer) :
    answer = (s.stores.database.answer call).1 := by
  cases h with
  | database _ _ => rfl
  | trouble _ _ hfail _ => exact absurd hfail hok

/-- Only calls of the database change the tables. -/
theorem database_of_other {call : Call} {answer : call.Answer}
    (h : Answered r s call answer stores) (hother : ∀ c, call ≠ .database c) :
    stores.database = s.stores.database := by
  cases h with
  | clock | fresh | content | trouble => rfl
  | database call _ => exact absurd rfl (hother call)

end Database

section Drawn

variable {κ : Type} [ContentStore κ] {r : Regime} {s : Shared κ} {call : Call}
  {answer : call.Answer} {stores : Stores κ}

/-- An identifier that is drawn was drawn by nobody before. -/
theorem not_drew (h : Answered r s call answer stores) {i : Nat} {operation : Operation} {id : Uuid}
    (hdrawn : (⟨i, operation, call, answer⟩ : Event).drawn? = some id) (j : Nat) :
    ¬ Drew s.log j id := by
  cases h with
  | clock => exact nomatch hdrawn
  | fresh id' hid =>
    cases hdrawn
    exact hid j
  | database => exact nomatch hdrawn
  | content => exact nomatch hdrawn
  | trouble _ _ hfail _ =>
    -- To draw an identifier never fails.
    cases call with
    | freshId => exact hfail.elim
    | now | database | content => exact nomatch hdrawn

end Drawn

section Content

variable {κ : Type} [LawfulContentStore κ] {r : Regime} {s : Shared κ} {call : Content.Call}
  {stores : Stores κ}

/-- A call of the content store that succeeds is answered by the texts that it keeps. -/
theorem content_ok {result : call.Result}
    (h : Answered r s (.content call) (.ok result) stores) :
    ((LawfulContentStore.texts s.stores.content).answer call).1 = .ok result ∧
      stores.database = s.stores.database ∧ LawfulContentStore.texts stores.content =
        ((LawfulContentStore.texts s.stores.content).answer call).2 := by
  generalize hanswer : (Except.ok result : Call.Answer (.content call)) = answer at h
  cases h with
  | content _ _ =>
    refine ⟨?_, rfl, LawfulContentStore.texts_answer s.stores.content call⟩
    rw [← LawfulContentStore.answer_eq]
    rfl
  | trouble _ _ hfail _ =>
    subst hanswer
    obtain ⟨fault, heq⟩ := hfail
    exact nomatch heq

/-- A call of the content store that fails has no effect, and it may fail. -/
theorem content_error {fault : ContentFault}
    (h : Answered r s (.content call) (.error fault) stores) :
    stores.database = s.stores.database ∧
      LawfulContentStore.texts stores.content = LawfulContentStore.texts s.stores.content ∧
      r.mayFail (.content call) := by
  generalize hanswer : (Except.error fault : Call.Answer (.content call)) = answer at h
  cases h with
  | content _ hmay =>
    have herror : (ContentStore.answer s.stores.content call).1 = .error fault := hanswer.symm
    refine ⟨rfl, ?_, hmay ⟨fault, herror⟩⟩
    rw [LawfulContentStore.answer_eq] at herror
    exact (LawfulContentStore.texts_answer s.stores.content call).trans
      (Content.Map.answer_error herror)
  | trouble _ _ _ hmay => exact ⟨rfl, rfl, hmay⟩

/-- A call of the content store keeps the texts under all keys but its own. -/
theorem texts_other {answer : call.Answer} (h : Answered r s (.content call) answer stores)
    {key : String} (hkey : call.key ≠ key) : stores.texts key = s.stores.texts key := by
  cases answer with
  | error fault => exact congrFun h.content_error.2.1 key
  | ok result =>
    have htexts := congrFun h.content_ok.2.2 key
    exact htexts.trans (Content.Map.answer_other _ hkey)

/-- Only calls of the content store change the texts. -/
theorem content_of_other {call : Call} {answer : call.Answer}
    (h : Answered r s call answer stores) (hother : ∀ c, call ≠ .content c) :
    stores.texts = s.stores.texts := by
  cases h with
  | clock | fresh | database | trouble => rfl
  | content call _ => exact absurd rfl (hother call)

end Content

section Kept

variable {κ : Type} [LawfulContentStore κ] {r : Regime} {s : Shared κ} {stores : Stores κ}

/-- A call that reads keeps everything, and so does one that fails. -/
theorem kept_of_reads {call : Call} {answer : call.Answer} (h : Answered r s call answer stores)
    (hreads : call.reads = true) : Kept s.stores stores := by
  cases h with
  | clock | fresh | trouble => exact ⟨rfl, rfl⟩
  | database call _ => exact kept_answer hreads s.stores
  | content call _ => exact kept_answer hreads s.stores

theorem kept_of_database_error {call : Database.Call} {fault : Fault}
    (h : Answered r s (.database call) (.error fault) stores) : Kept s.stores stores := by
  rw [h.database_error.1]
  exact ⟨rfl, rfl⟩

theorem kept_of_denies {call : Database.Call} {answer : call.Answer}
    (h : Answered r s (.database call) answer stores) (hdenies : call.denies answer = true) :
    Kept s.stores stores :=
  ⟨h.effect.1.of_denies hdenies, congrArg LawfulContentStore.texts h.effect.2⟩

theorem kept_of_content_error {call : Content.Call} {fault : ContentFault}
    (h : Answered r s (.content call) (.error fault) stores) : Kept s.stores stores :=
  ⟨h.content_error.1, h.content_error.2.1⟩

end Kept

end Interleaving.Answered

end ContestPlatform
