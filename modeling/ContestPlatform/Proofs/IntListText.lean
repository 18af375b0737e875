import ContestPlatform.IntList

/-!
# Lists of integers that are read back

The choices of a submission and the cohorts of a contest are kept as text. Reading is lenient, so it
is not clear that what is read is what was written. It is: a printed integer is read as itself, no
entry has a comma or a blank in it, and the braces come off again.
-/

namespace ContestPlatform

namespace Text

/-- Nothing is trimmed off a text without blanks. -/
theorem trim_eq_self {cs : List Char} (h : ∀ c ∈ cs, isBlank c = false) : trim cs = cs := by
  have hdrop : ∀ ds : List Char, (∀ c ∈ ds, isBlank c = false) → ds.dropWhile isBlank = ds := by
    intro ds hds
    cases ds with
    | nil => rfl
    | cons d rest => simp [hds d List.mem_cons_self]
  -- The same holds from behind, where the text is turned round.
  have hend : (cs.reverse.dropWhile isBlank) = cs.reverse := by
    apply hdrop
    intro c hc
    exact h c (List.mem_reverse.mp hc)
  simp [trim, trimStart, trimEnd, hdrop cs h, hend]

namespace Decimal

theorem digits?_ofNat (n : Nat) : digits? (ofNat n) = some n := by
  have hall : (ofNat n).all Char.isDigit = true := by
    apply List.all_eq_true.mpr
    intro c hc
    exact Nat.isDigit_of_mem_toDigits (by decide) (by decide) hc
  have hne : (ofNat n).isEmpty = false := by
    simp [ofNat, Nat.toDigits_ne_nil]
  have hvalue : Nat.ofDigitChars 10 (ofNat n) 0 = n :=
    Nat.ofDigitChars_toDigits (by decide) (by decide)
  simp [digits?, hall, hne, hvalue]

/-- A run of digits has no sign, so it is read as what it stands for. -/
theorem integer?_of_digits? {cs : List Char} {n : Nat} (h : digits? cs = some n) :
    integer? cs = some (n : Int) := by
  unfold integer?
  split
  -- Neither sign is a digit.
  · simp [digits?] at h
  · simp [digits?] at h
  · simp [h]

/-- An integer that was printed is read as itself. -/
theorem integer?_ofInt (n : Int) : integer? (ofInt n) = some n := by
  unfold ofInt
  split
  case isTrue hneg =>
    -- After the sign there are the digits of the absolute value.
    have habs : -(n.natAbs : Int) = n := by omega
    simpa [integer?, digits?_ofNat] using habs
  case isFalse hpos =>
    rw [integer?_of_digits? (digits?_ofNat n.natAbs)]
    apply congrArg some
    omega

theorem int32?_ofInt (v : Int32) : int32? (ofInt v.toInt) = some v := by
  have hrange : Int32.minValue.toInt ≤ v.toInt ∧ v.toInt ≤ Int32.maxValue.toInt :=
    ⟨Int32.minValue_le_toInt v, Int32.toInt_le v⟩
  rw [int32?, integer?_ofInt, Option.bind_some, toInt32?, if_pos hrange, Int32.ofInt_toInt]

/-- A printed integer has digits, and a minus sign at most. -/
theorem mem_ofInt {n : Int} {c : Char} (h : c ∈ ofInt n) : c = '-' ∨ c.isDigit = true := by
  have hdigit : ∀ m : Nat, c ∈ ofNat m → c.isDigit = true := fun m hc =>
    Nat.isDigit_of_mem_toDigits (by decide) (by decide) hc
  unfold ofInt at h
  split at h
  · rcases List.mem_cons.mp h with rfl | hc
    · exact Or.inl rfl
    · exact Or.inr (hdigit _ hc)
  · exact Or.inr (hdigit _ h)

end Decimal

end Text

namespace IntList

open Text (isBlank trim trim_eq_self)
open Text.Decimal (int32? int32?_ofInt mem_ofInt ofInt)

/-- A stored list has commas and the characters of its entries. -/
private theorem mem_commas {values : List Int32} {c : Char} (h : c ∈ commas values) :
    c = ',' ∨ c = '-' ∨ c.isDigit = true := by
  unfold commas at h
  induction values with
  | nil => simp at h
  | cons v rest ih =>
    cases rest with
    | nil =>
      simp only [List.map_cons, List.map_nil, List.intercalate_singleton] at h
      exact Or.inr (mem_ofInt h)
    | cons w more =>
      simp only [List.map_cons, List.intercalate_cons_cons, List.mem_append,
        List.mem_singleton] at h
      rcases h with (hentry | hcomma) | hrest
      · exact Or.inr (mem_ofInt hentry)
      · exact Or.inl hcomma
      · exact ih hrest

theorem isBlank_eq_false {c : Char} (h : c = ',' ∨ c = '-' ∨ c.isDigit = true) :
    isBlank c = false := by
  rcases h with rfl | rfl | hdigit
  · rfl
  · rfl
  · -- The digits lie between 48 and 57, where there are no blanks.
    have hrange : 48 ≤ c.toNat ∧ c.toNat ≤ 57 := by
      simpa [Char.isDigit, UInt32.le_iff_toNat_le] using hdigit
    unfold isBlank
    generalize c.toNat = n at hrange
    simp
    omega

/-- The entries of a list that was written are its values. -/
private theorem entries_commas (values : List Int32) : entries (commas values) = values := by
  cases values with
  | nil => rfl
  | cons v rest =>
    have hcomma : ∀ entry ∈ (v :: rest).map fun v => ofInt v.toInt, ',' ∉ entry := by
      intro entry hentry
      obtain ⟨w, -, rfl⟩ := List.mem_map.mp hentry
      intro h
      rcases mem_ofInt h with h | h
      · exact absurd h (by decide)
      · exact absurd h (by decide)
    have hread : ∀ v : Int32, int32? (trim (ofInt v.toInt)) = some v := by
      intro v
      rw [trim_eq_self fun c hc => isBlank_eq_false (Or.inr (mem_ofInt hc)), int32?_ofInt]
    have hall : (fun entry => int32? (trim entry)) ∘ (fun v : Int32 => ofInt v.toInt) = some :=
      funext hread
    -- The list falls apart into its entries, and each of them is read as it was.
    rw [entries, commas, List.splitOn_intercalate ',' hcomma (by simp), List.filterMap_map, hall,
      List.filterMap_some]

/-- A list that is kept with braces is read back. -/
theorem read_braced (values : List Int32) : read (braced values) = values := by
  have hblank : ∀ c ∈ '{' :: commas values ++ ['}'], isBlank c = false := by
    intro c hc
    simp only [List.cons_append, List.mem_cons, List.mem_append, List.not_mem_nil, or_false] at hc
    rcases hc with rfl | hc | rfl
    · rfl
    · exact isBlank_eq_false (mem_commas hc)
    · rfl
  have hunbrace : unbrace ('{' :: commas values ++ ['}']) = commas values := by
    simp [unbrace]
  rw [read, braced, String.toList_ofList, trim_eq_self hblank, hunbrace, entries_commas]

/-- A list that is kept without braces is read back. -/
theorem read_plain (values : List Int32) : read (plain values) = values := by
  have hblank : ∀ c ∈ commas values, isBlank c = false := fun c hc =>
    isBlank_eq_false (mem_commas hc)
  have hunbrace : unbrace (commas values) = commas values := by
    unfold unbrace
    split
    case h_1 rest heq =>
      -- No list begins with a brace.
      have hbrace : '{' ∈ commas values := heq ▸ List.mem_cons_self
      rcases mem_commas hbrace with h | h | h
      · exact absurd h (by decide)
      · exact absurd h (by decide)
      · exact absurd h (by decide)
    case h_2 => rfl
  rw [read, plain, String.toList_ofList, trim_eq_self hblank, hunbrace, entries_commas]

end IntList

end ContestPlatform
