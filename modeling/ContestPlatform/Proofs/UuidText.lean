import ContestPlatform.Uuid
import Mathlib.Data.Nat.Bitwise
import Mathlib.Data.List.Basic

/-!
# Printed identifiers

Different identifiers are printed differently, and every printed identifier has 36 characters, each
of them a hexadecimal digit or a hyphen. The keys of the content store are built from printed
identifiers, so what keeps two keys apart rests on these facts. A printed identifier is read as
itself.
-/

namespace ContestPlatform

namespace Text.Hex

/-- The sixteen digits. -/
def digits : List Char :=
  "0123456789abcdef".toList

theorem lower_mem_digits {n : Nat} (h : n < 16) : lower n ∈ digits := by
  have hall : ∀ k ∈ List.range 16, lower k ∈ digits := by decide
  exact hall n (List.mem_range.mpr h)

theorem digit?_lower {n : Nat} (h : n < 16) : digit? (lower n) = some n := by
  have hall : ∀ k ∈ List.range 16, digit? (lower k) = some k := by decide
  exact hall n (List.mem_range.mpr h)

theorem lower_inj {m n : Nat} (hm : m < 16) (hn : n < 16) (h : lower m = lower n) : m = n := by
  -- A digit is read back as its value.
  have hdigit := digit?_lower hm
  rw [h, digit?_lower hn] at hdigit
  exact (Option.some.inj hdigit).symm

end Text.Hex

namespace Uuid

/-! ## Digits -/

@[simp] theorem length_digits (u : Uuid) : u.digits.length = 32 := by
  simp [digits]

theorem mem_hexDigits_of_mem_digits {u : Uuid} {c : Char} (h : c ∈ u.digits) :
    c ∈ Text.Hex.digits := by
  simp only [digits, List.mem_map] at h
  obtain ⟨i, -, rfl⟩ := h
  exact Text.Hex.lower_mem_digits (Nat.mod_lt _ (by decide))

/-- A number below 2^128 is determined by its 32 hexadecimal digits. -/
private theorem eq_of_nibbles {m n : Nat} (hm : m < 1 <<< 128) (hn : n < 1 <<< 128)
    (h : ∀ k < 32, (m >>> (4 * k)) % 16 = (n >>> (4 * k)) % 16) : m = n := by
  apply Nat.eq_of_testBit_eq
  intro j
  by_cases hj : j < 128
  · -- Bit `j` is bit `j % 4` of digit `j / 4`.
    have hbit : ∀ x : Nat, ((x >>> (4 * (j / 4))) % 16).testBit (j % 4) = x.testBit j := by
      intro x
      have h16 : (16 : Nat) = 2 ^ 4 := rfl
      rw [h16, Nat.testBit_mod_two_pow, Nat.testBit_shiftRight, Nat.div_add_mod]
      simp [Nat.mod_lt j (show 4 > 0 by decide)]
    rw [← hbit m, ← hbit n, h (j / 4) (by omega)]
  · -- Beyond the digits all bits are zero.
    have hsmall : ∀ x : Nat, x < 1 <<< 128 → x.testBit j = false := by
      intro x hx
      refine Nat.testBit_lt_two_pow (lt_of_lt_of_le hx ?_)
      rw [Nat.shiftLeft_eq, one_mul]
      exact Nat.pow_le_pow_right (by decide) (by omega)
    rw [hsmall m hm, hsmall n hn]

/-- The digits determine the identifier. -/
theorem digits_injective : Function.Injective digits := by
  intro u v h
  have hnat : u.toNat = v.toNat := by
    refine eq_of_nibbles u.bits.isLt v.bits.isLt fun k hk => ?_
    have hk' : 31 - (31 - k) = k := by omega
    -- The digit of weight `16 ^ k` stands at place `31 - k`.
    have hget : ∀ w : Uuid, w.digits[31 - k]? =
        some (Text.Hex.lower ((w.toNat >>> (4 * k)) % 16)) := by
      intro w
      simp [digits, List.getElem?_map, List.getElem?_range (show 31 - k < 32 by omega), hk']
    have hplace : u.digits[31 - k]? = v.digits[31 - k]? := by rw [h]
    rw [hget u, hget v] at hplace
    exact Text.Hex.lower_inj (Nat.mod_lt _ (by decide)) (Nat.mod_lt _ (by decide))
      (Option.some.inj hplace)
  obtain ⟨a⟩ := u
  obtain ⟨b⟩ := v
  exact congrArg Uuid.mk (BitVec.eq_of_toNat_eq hnat)

/-! ## Printed identifiers -/

/-- The groups of digits are all digits in their order. -/
private theorem groups_digits (u : Uuid) :
    u.digits.take 8 ++ ((u.digits.drop 8).take 4 ++ ((u.digits.drop 12).take 4 ++
      ((u.digits.drop 16).take 4 ++ u.digits.drop 20))) = u.digits := by
  have hsplit : ∀ n m : Nat, (u.digits.drop m).take n ++ u.digits.drop (m + n) =
      u.digits.drop m := by
    intro n m
    rw [← List.drop_drop, List.take_append_drop]
  rw [hsplit 4 16, hsplit 4 12, hsplit 4 8, List.take_append_drop]

/-- The digits are what is printed without the hyphens. -/
theorem filter_render (u : Uuid) : u.render.filter (· != '-') = u.digits := by
  -- No group of digits loses anything.
  have hkeep : ∀ ds : List Char, (∀ c ∈ ds, c ∈ u.digits) → ds.filter (· != '-') = ds := by
    intro ds hds
    refine List.filter_eq_self.mpr fun c hc => ?_
    have hmem := mem_hexDigits_of_mem_digits (hds c hc)
    have hne : Text.Hex.digits.all (· != '-') = true := rfl
    exact List.all_eq_true.mp hne c hmem
  have htake : ∀ n m : Nat, ∀ c ∈ (u.digits.drop m).take n, c ∈ u.digits :=
    fun n m c hc => List.mem_of_mem_drop (List.mem_of_mem_take hc)
  have hhyphen : ∀ cs : List Char, ('-' :: cs).filter (· != '-') = cs.filter (· != '-') :=
    fun cs => rfl
  simp only [render, List.append_assoc, List.cons_append, List.filter_append, hhyphen]
  rw [hkeep _ (fun c hc => List.mem_of_mem_take hc), hkeep _ (htake 4 8), hkeep _ (htake 4 12),
    hkeep _ (htake 4 16), hkeep _ (fun c hc => List.mem_of_mem_drop hc), groups_digits]

@[simp] theorem length_render (u : Uuid) : u.render.length = 36 := by
  simp [render]

/-- The printed form determines the identifier. -/
theorem render_injective : Function.Injective render := by
  intro u v h
  apply digits_injective
  rw [← filter_render u, ← filter_render v, h]

/-- Every character of a printed identifier is a hexadecimal digit or a hyphen. -/
theorem mem_render {u : Uuid} {c : Char} (h : c ∈ u.render) : c ∈ '-' :: Text.Hex.digits := by
  by_cases hc : c = '-'
  · exact hc ▸ List.mem_cons_self
  · have hfilter : c ∈ u.render.filter (· != '-') := List.mem_filter.mpr ⟨h, by simpa using hc⟩
    rw [filter_render] at hfilter
    exact List.mem_cons_of_mem _ (mem_hexDigits_of_mem_digits hfilter)

/-- A printed identifier has none of the characters that mean something in a key. -/
theorem notMem_render {u : Uuid} {c : Char} (hc : c ∉ '-' :: Text.Hex.digits) : c ∉ u.render :=
  fun h => hc (mem_render h)

theorem slash_notMem_render (u : Uuid) : '/' ∉ u.render :=
  notMem_render (by decide)

theorem backslash_notMem_render (u : Uuid) : '\\' ∉ u.render :=
  notMem_render (by decide)

/-- A text of characters of one byte each has as many bytes as characters. -/
private theorem utf8ByteSize_ofList {cs : List Char} (h : ∀ c ∈ cs, c.utf8Size = 1) :
    (String.ofList cs).utf8ByteSize = cs.length := by
  induction cs with
  | nil => rfl
  | cons c rest ih =>
    have hrest := ih fun d hd => h d (List.mem_cons_of_mem c hd)
    rw [String.ofList_cons, String.utf8ByteSize_append, String.utf8ByteSize_singleton,
      h c List.mem_cons_self, hrest, List.length_cons, Nat.add_comm]

/-- A printed identifier has 36 bytes. -/
theorem utf8ByteSize_text (u : Uuid) : u.text.utf8ByteSize = 36 := by
  have hbyte : ('-' :: Text.Hex.digits).all (·.utf8Size == 1) = true := rfl
  have hone : ∀ c ∈ u.render, c.utf8Size = 1 := fun c hc =>
    eq_of_beq (List.all_eq_true.mp hbyte c (mem_render hc))
  rw [text, utf8ByteSize_ofList hone, length_render]

@[simp] theorem toList_text (u : Uuid) : u.text.toList = u.render := by
  simp [text]

theorem text_injective : Function.Injective text := by
  intro u v h
  apply render_injective
  rw [← toList_text u, ← toList_text v, h]

/-! ## Reading -/

/-- The first `k` digits are read as the number without its later ones. -/
private theorem value?_take {n : Nat} (hn : n < 1 <<< 128) {k : Nat} (hk : k ≤ 32) :
    Text.Hex.value? ((List.range k).map fun i => Text.Hex.lower ((n >>> (4 * (31 - i))) % 16)) =
      some (n >>> (4 * (32 - k))) := by
  induction k with
  | zero =>
    have hzero : n >>> (4 * (32 - 0)) = 0 := by
      rw [Nat.shiftRight_eq_div_pow]
      exact Nat.div_eq_of_lt (by simpa using hn)
    rw [hzero]
    rfl
  | succ k ih =>
    have hdigit := Text.Hex.digit?_lower (Nat.mod_lt (n >>> (4 * (31 - k))) (show 16 > 0 by decide))
    have hshift : 4 * (32 - k) = 4 * (31 - k) + 4 := by omega
    have hnext : 16 * (n >>> (4 * (32 - k))) + (n >>> (4 * (31 - k))) % 16 =
        n >>> (4 * (31 - k)) := by
      rw [hshift, Nat.shiftRight_add, Nat.shiftRight_eq_div_pow (n >>> (4 * (31 - k)))]
      exact Nat.div_add_mod _ 16
    have hbefore := ih (by omega)
    rw [Text.Hex.value?] at hbefore ⊢
    have hlast : 32 - (k + 1) = 31 - k := by omega
    simp [List.range_succ, hbefore, hdigit, hnext, hlast]

/-- The digits are read as the bits. -/
theorem ofDigits?_digits (u : Uuid) : ofDigits? u.digits = some u := by
  have hvalue := value?_take (k := 32) u.bits.isLt (Nat.le_refl 32)
  have hall : Text.Hex.value? u.digits = some u.toNat := hvalue
  rw [ofDigits?, if_pos u.length_digits, hall, Option.map_some, ofNat, toNat, BitVec.ofNat_toNat,
    BitVec.setWidth_eq]

/-- Groups with hyphens between them are read as the digits of all groups. -/
theorem ofHyphenated?_groups {a b c d e : List Char} (ha : a.length = 8) (hb : b.length = 4)
    (hc : c.length = 4) (hd : d.length = 4) (he : e.length = 12) :
    ofHyphenated? (a ++ '-' :: b ++ '-' :: c ++ '-' :: d ++ '-' :: e) =
      ofDigits? (a ++ b ++ c ++ d ++ e) := by
  -- A group is cut off where the groups before it end.
  have hdrop : ∀ (cs : List Char) (n : Nat), cs.length ≤ n → cs.drop n = [] :=
    fun _ _ => List.drop_eq_nil_of_le
  simp [ofHyphenated?, List.drop_append, hdrop, ha, hb, hc, hd, he]

/-- A printed identifier is read as itself. -/
theorem ofText?_text (u : Uuid) : ofText? u.text = some u := by
  have hgroups := ofHyphenated?_groups (a := u.digits.take 8) (b := (u.digits.drop 8).take 4)
    (c := (u.digits.drop 12).take 4) (d := (u.digits.drop 16).take 4) (e := u.digits.drop 20)
    (by simp) (by simp) (by simp) (by simp) (by simp)
  simp only [List.append_assoc] at hgroups
  rw [groups_digits, ofDigits?_digits] at hgroups
  simpa [ofText?, read?, render] using hgroups

end Uuid

end ContestPlatform
