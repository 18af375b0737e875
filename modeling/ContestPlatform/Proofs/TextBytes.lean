import ContestPlatform.Text.Percent
import Mathlib.Data.List.Basic
import Mathlib.Tactic.SplitIfs

/-!
# Texts as bytes

A text is read back from its bytes, and the path of an object determines the text that it was
encoded from: every byte is written as one character that is no percent sign or as a percent sign
and two digits, so the path falls apart into the bytes in one way only.
-/

namespace ContestPlatform.Text

namespace Utf8

/-- The bytes of a text are read back as the text. -/
@[simp] theorem decode?_encode (s : String) : decode? (encode s) = some s := by
  rw [decode?, encode, Array.toArray_toList]
  exact dif_pos s.isValidUTF8

theorem encode_injective : Function.Injective encode := by
  intro s s' h
  have hdecode := congrArg decode? h
  rw [decode?_encode, decode?_encode] at hdecode
  exact Option.some.inj hdecode

end Utf8

namespace Hex

theorem digit?_upper {n : Nat} (h : n < 16) : digit? (upper n) = some n := by
  have hall : ∀ k ∈ List.range 16, digit? (upper k) = some k := by decide
  exact hall n (List.mem_range.mpr h)

theorem upper_inj {m n : Nat} (hm : m < 16) (hn : n < 16) (h : upper m = upper n) : m = n := by
  have hdigit := digit?_upper hm
  rw [h, digit?_upper hn] at hdigit
  exact (Option.some.inj hdigit).symm

end Hex

namespace Percent

/-- How one byte is written in the path of an object. -/
def pathByte (b : UInt8) : List Char :=
  if isPlain b then [Char.ofNat b.toNat] else encodeByte b

theorem encodePath_eq (s : String) :
    encodePath s = String.ofList ((Utf8.encode s).flatMap pathByte) := rfl

/-- A byte as a character is the character of the same number. -/
private theorem toNat_ofNat (b : UInt8) : (Char.ofNat b.toNat).toNat = b.toNat := by
  have hvalid : b.toNat.isValidChar := Or.inl (Nat.lt_trans b.toNat_lt (by decide))
  rw [Char.ofNat, dif_pos hvalid]
  rfl

private theorem ofNat_inj {b c : UInt8} (h : Char.ofNat b.toNat = Char.ofNat c.toNat) : b = c := by
  have hnat := congrArg Char.toNat h
  rw [toNat_ofNat, toNat_ofNat] at hnat
  exact UInt8.toNat_inj.mp hnat

private theorem ne_percent {b : UInt8} (h : isPlain b = true) : Char.ofNat b.toNat ≠ '%' := by
  intro hpercent
  rw [isPlain, hpercent] at h
  exact absurd h (by decide)

private theorem encodeByte_inj {b c : UInt8} (h : encodeByte b = encodeByte c) : b = c := by
  simp only [encodeByte, List.cons.injEq, and_true, true_and] at h
  have hb := b.toNat_lt
  have hc := c.toNat_lt
  have hhigh := Hex.upper_inj (by omega) (by omega) h.1
  have hlow := Hex.upper_inj (by omega) (by omega) h.2
  exact UInt8.toNat_inj.mp (by omega)

/-- What a path begins with determines its first byte and the rest of the path. -/
theorem pathByte_append_inj {b c : UInt8} {rest rest' : List Char}
    (h : pathByte b ++ rest = pathByte c ++ rest') : b = c ∧ rest = rest' := by
  unfold pathByte at h
  split_ifs at h with hb hc hc
  · obtain ⟨hhead, htail⟩ := List.cons.inj h
    exact ⟨ofNat_inj hhead, htail⟩
  · exact absurd (List.cons.inj h).1 (ne_percent hb)
  · exact absurd (List.cons.inj h).1.symm (ne_percent hc)
  · -- Encoded bytes are equally long.
    obtain ⟨hbyte, htail⟩ := List.append_inj h rfl
    exact ⟨encodeByte_inj hbyte, htail⟩

private theorem flatMap_pathByte_injective :
    Function.Injective fun bs : List UInt8 => bs.flatMap pathByte := by
  have hne : ∀ b, pathByte b ≠ [] := by
    intro b
    unfold pathByte
    split_ifs <;> exact List.cons_ne_nil _ _
  intro bs
  induction bs with
  | nil =>
    intro bs' h
    cases bs' with
    | nil => rfl
    | cons b rest => exact absurd (List.append_eq_nil_iff.mp h.symm).1 (hne b)
  | cons b rest ih =>
    intro bs' h
    cases bs' with
    | nil => exact absurd (List.append_eq_nil_iff.mp h).1 (hne b)
    | cons c rest' =>
      obtain ⟨rfl, htail⟩ := pathByte_append_inj h
      rw [ih htail]

/-- The path of an object determines the text that it stands for. -/
theorem encodePath_injective : Function.Injective encodePath := by
  intro s s' h
  rw [encodePath_eq, encodePath_eq] at h
  exact Utf8.encode_injective (flatMap_pathByte_injective (String.ofList_injective h))

end Percent

end ContestPlatform.Text
