import ContestPlatform.Content.Memory
import Mathlib.Logic.Function.Basic
import Mathlib.Tactic.SplitIfs

/-!
# Content stores as maps

What a content store is for: under every key it keeps a text or nothing. A store is lawful if there
is a map from keys to texts such that every call is answered from the map and changes it as the
call says. What is proved of lawful stores holds of every store that answers so; the store in
memory is one.
-/

namespace ContestPlatform

namespace Content

/-- The texts that are kept under the keys. -/
abbrev Map : Type :=
  String → Option String

namespace Map

/-- How a map answers a call. -/
def answer (m : Map) (call : Call) : call.Answer × Map :=
  if isKey call.key then
    match call with
    | .put key body mode =>
      if mode = .createOnly ∧ (m key).isSome then (.error (.alreadyExists key), m)
      else (.ok (), Function.update m key (some body))
    | .get key =>
      match m key with
      | some body => (.ok body, m)
      | none => (.error (.notFound key), m)
    | .delete key => (.ok (), Function.update m key none)
  else (.error (.invalidKey call.key), m)

/-- A put either fails and keeps the map, or leaves its text under its key. -/
theorem answer_put (m : Map) (key body : String) (mode : PutMode) :
    (∃ fault, m.answer (.put key body mode) = (.error fault, m)) ∨
      m.answer (.put key body mode) = (.ok (), Function.update m key (some body)) := by
  unfold answer
  split_ifs with hkey
  · dsimp only
    split_ifs with hmode
    · exact Or.inl ⟨_, rfl⟩
    · exact Or.inr rfl
  · exact Or.inl ⟨_, rfl⟩

/-- A deletion either fails and keeps the map, or leaves nothing under its key. -/
theorem answer_delete (m : Map) (key : String) :
    (∃ fault, m.answer (.delete key) = (.error fault, m)) ∨
      m.answer (.delete key) = (.ok (), Function.update m key none) := by
  unfold answer
  split_ifs with hkey
  · exact Or.inr rfl
  · exact Or.inl ⟨_, rfl⟩

theorem answer_get_snd (m : Map) (key : String) : (m.answer (.get key)).2 = m := by
  unfold answer
  dsimp only
  split_ifs
  · cases m key <;> rfl
  · rfl

theorem answer_error {m : Map} {call : Call} {fault : ContentFault}
    (h : (m.answer call).1 = .error fault) : (m.answer call).2 = m := by
  cases call with
  | put key body mode =>
    rcases m.answer_put key body mode with ⟨fault', heq⟩ | heq
    · rw [heq]
    · rw [heq] at h
      exact nomatch h
  | get key => exact m.answer_get_snd key
  | delete key =>
    rcases m.answer_delete key with ⟨fault', heq⟩ | heq
    · rw [heq]
    · rw [heq] at h
      exact nomatch h

theorem answer_put_ok {m : Map} {key body : String} {mode : PutMode}
    (h : (m.answer (.put key body mode)).1 = .ok ()) :
    (m.answer (.put key body mode)).2 = Function.update m key (some body) := by
  rcases m.answer_put key body mode with ⟨fault, heq⟩ | heq
  · rw [heq] at h
    exact nomatch h
  · rw [heq]

/-- A put that may only create succeeds only where nothing was kept. -/
theorem eq_none_of_answer_create_ok {m : Map} {key body : String}
    (h : (m.answer (.put key body .createOnly)).1 = .ok ()) : m key = none := by
  unfold answer at h
  dsimp only at h
  split_ifs at h with hkey hmode
  · simpa using hmode

theorem answer_delete_ok {m : Map} {key : String} (h : (m.answer (.delete key)).1 = .ok ()) :
    (m.answer (.delete key)).2 = Function.update m key none := by
  rcases m.answer_delete key with ⟨fault, heq⟩ | heq
  · rw [heq] at h
    exact nomatch h
  · rw [heq]

/-- What is kept under a key is what a get of the key gives. -/
theorem answer_get {m : Map} {key body : String} (hkey : isKey key = true)
    (hbody : m key = some body) : m.answer (.get key) = (.ok body, m) := by
  have hget : (Call.get key).key = key := rfl
  simp only [answer, hget, hkey, reduceIte, hbody]

theorem answer_get_of_none {m : Map} {key : String} (hkey : isKey key = true)
    (hnone : m key = none) : m.answer (.get key) = (.error (.notFound key), m) := by
  have hget : (Call.get key).key = key := rfl
  simp only [answer, hget, hkey, reduceIte, hnone]

/-- A put is refused if it may only create and something is kept under its key. -/
theorem answer_put_of_refused {m : Map} {key body : String} {mode : PutMode}
    (hkey : isKey key = true) (hrefused : mode = .createOnly ∧ (m key).isSome) :
    m.answer (.put key body mode) = (.error (.alreadyExists key), m) := by
  have hput : (Call.put key body mode).key = key := rfl
  simp only [answer, hput, hkey, reduceIte, if_pos hrefused]

theorem answer_put_of_free {m : Map} {key body : String} {mode : PutMode}
    (hkey : isKey key = true) (hfree : ¬ (mode = .createOnly ∧ (m key).isSome)) :
    m.answer (.put key body mode) = (.ok (), Function.update m key (some body)) := by
  have hput : (Call.put key body mode).key = key := rfl
  simp only [answer, hput, hkey, reduceIte, if_neg hfree]

/-- A put that may only create writes its text where nothing is kept, and is refused elsewhere. -/
theorem answer_create (m : Map) {key : String} (body : String) (hkey : isKey key = true) :
    ((∃ text, m key = some text) ∧
      m.answer (.put key body .createOnly) = (.error (.alreadyExists key), m)) ∨
    m.answer (.put key body .createOnly) = (.ok (), Function.update m key (some body)) := by
  cases htext : m key with
  | some text =>
    refine Or.inl ⟨⟨text, rfl⟩, answer_put_of_refused hkey ⟨rfl, ?_⟩⟩
    rw [htext]
    rfl
  | none =>
    refine Or.inr (answer_put_of_free hkey ?_)
    rintro ⟨-, htaken⟩
    rw [htext] at htaken
    exact nomatch htaken

theorem answer_delete_of_isKey {m : Map} {key : String} (hkey : isKey key = true) :
    m.answer (.delete key) = (.ok (), Function.update m key none) := by
  have hdelete : (Call.delete key).key = key := rfl
  simp only [answer, hdelete, hkey, reduceIte]

/-- A call changes nothing under other keys than its own. -/
theorem answer_other (m : Map) {call : Call} {key : String} (hkey : call.key ≠ key) :
    (m.answer call).2 key = m key := by
  cases call with
  | put own body mode =>
    rcases m.answer_put own body mode with ⟨fault, heq⟩ | heq
    · rw [heq]
    · rw [heq]
      exact Function.update_of_ne hkey.symm _ _
  | get own => rw [answer_get_snd]
  | delete own =>
    rcases m.answer_delete own with ⟨fault, heq⟩ | heq
    · rw [heq]
    · rw [heq]
      exact Function.update_of_ne hkey.symm _ _

/-- A call looks at nothing but its key. Where two maps keep the same, they keep the same after a
    call if they agree on its key. -/
theorem answer_congr {m m' : Map} {call : Call} (hkey : m call.key = m' call.key) :
    (m.answer call).1 = (m'.answer call).1 ∧
      ∀ key, m key = m' key → (m.answer call).2 key = (m'.answer call).2 key := by
  unfold answer
  split_ifs
  · cases call with
    | put key body mode =>
      have hsame : m key = m' key := hkey
      -- Both maps refuse to create the key, or both write it.
      dsimp only
      rw [hsame]
      split_ifs
      · exact ⟨rfl, fun _ h => h⟩
      · refine ⟨rfl, fun k h => ?_⟩
        simp only [Function.update_apply, h]
    | get key =>
      have hsame : m key = m' key := hkey
      dsimp only
      rw [hsame]
      cases m' key with
      | none => exact ⟨rfl, fun _ h => h⟩
      | some body => exact ⟨rfl, fun _ h => h⟩
    | delete key =>
      refine ⟨rfl, fun k h => ?_⟩
      simp only [Function.update_apply, h]
  · exact ⟨rfl, fun _ h => h⟩

end Map

end Content

/-- A content store that keeps texts under keys: what it keeps decides how it answers. -/
class LawfulContentStore (κ : Type) extends ContentStore κ where
  /-- The texts that the store keeps. -/
  texts : κ → Content.Map
  answer_eq (s : κ) (call : Content.Call) :
    (answer s call).1 = ((texts s).answer call).1
  texts_answer (s : κ) (call : Content.Call) :
    texts (answer s call).2 = ((texts s).answer call).2

namespace Content.Memory

/-- The store in memory is lawful: it keeps what its association list says. -/
private theorem answer_lawful (m : Memory) (call : Call) :
    (m.answer call).1 = (Map.answer m.get? call).1 ∧
      (m.answer call).2.get? = (Map.answer m.get? call).2 := by
  unfold answer Map.answer
  split_ifs with hkey
  · cases call with
    | put key body mode =>
      -- The list contains a key if it gives a text for it.
      by_cases hmode : mode = .createOnly ∧ m.contains key = true
      · have hmap : mode = .createOnly ∧ (m.get? key).isSome = true := hmode
        simp only [if_pos hmode, if_pos hmap, and_self]
      · have hmap : ¬ (mode = .createOnly ∧ (m.get? key).isSome = true) := hmode
        simp only [if_neg hmode, if_neg hmap, true_and]
        funext k
        rw [get?_insert, Function.update_apply]
    | get key =>
      dsimp only
      cases hget : m.get? key <;> exact ⟨rfl, rfl⟩
    | delete key =>
      refine ⟨rfl, funext fun k => ?_⟩
      dsimp only
      rw [get?_erase, Function.update_apply]
  · exact ⟨rfl, rfl⟩

instance : LawfulContentStore Memory where
  texts := get?
  answer_eq m call := (answer_lawful m call).1
  texts_answer m call := (answer_lawful m call).2

end Content.Memory

end ContestPlatform
