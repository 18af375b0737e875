import ContestPlatform.Content.Store

/-!
# A content store in memory

The contents are an association list in which every key occurs at most once.
-/

namespace ContestPlatform.Content

/-- Texts under keys. -/
structure Memory where
  entries : List (String × String)
deriving DecidableEq, Inhabited

namespace Memory

/-- A store without content. -/
def empty : Memory := ⟨[]⟩

/-- The text under a key. -/
def get? (m : Memory) (key : String) : Option String :=
  m.entries.lookup key

/-- There is a text under a key. -/
def contains (m : Memory) (key : String) : Bool :=
  (m.get? key).isSome

/-- The number of keys. -/
def size (m : Memory) : Nat :=
  m.entries.length

/-- The store without a key. -/
def erase (m : Memory) (key : String) : Memory :=
  ⟨m.entries.filter fun e => e.1 != key⟩

/-- The store with a text under a key, in the place of any earlier one. -/
def insert (m : Memory) (key body : String) : Memory :=
  ⟨(key, body) :: (m.erase key).entries⟩

/-- Answer a call. -/
def answer (m : Memory) (call : Call) : call.Answer × Memory :=
  if isKey call.key then
    match call with
    | .put key body mode =>
      if mode = .createOnly ∧ m.contains key then (.error (.alreadyExists key), m)
      else (.ok (), m.insert key body)
    | .get key =>
      match m.get? key with
      | some body => (.ok body, m)
      | none => (.error (.notFound key), m)
    | .delete key => (.ok (), m.erase key)
  else (.error (.invalidKey call.key), m)

instance : ContentStore Memory := ⟨answer⟩

/-! ## What the operations do to the texts -/

theorem get?_erase (m : Memory) (key k : String) :
    (m.erase key).get? k = if k = key then none else m.get? k := by
  obtain ⟨entries⟩ := m
  simp only [get?, erase]
  induction entries with
  | nil => simp
  | cons e rest ih =>
    obtain ⟨a, b⟩ := e
    simp only [List.filter_cons, bne_iff_ne, ne_eq, List.lookup_cons]
    by_cases ha : a = key
    · by_cases hk : k = key
      · simpa [ha, hk] using ih
      · have : (k == key) = false := by simp [hk]
        simpa [ha, hk, this] using ih
    · by_cases hk : k = a
      · subst hk; simp [ha]
      · have : (k == a) = false := by simp [hk]
        simpa [ha, List.lookup_cons, this] using ih

theorem get?_insert (m : Memory) (key body k : String) :
    (m.insert key body).get? k = if k = key then some body else m.get? k := by
  have h := get?_erase m key k
  simp only [get?, insert, List.lookup_cons] at h ⊢
  by_cases hk : k = key
  · simp [hk]
  · have : (k == key) = false := by simp [hk]
    simpa [this, hk] using h

end Memory

end ContestPlatform.Content
