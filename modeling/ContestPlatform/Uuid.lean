import ContestPlatform.Text.Hex

/-!
# Identifiers

A 128-bit identifier. It is printed as 32 lower-case hexadecimal digits in groups of 8, 4, 4, 4
and 12, and read in four forms and any letter case: with hyphens, without them, with hyphens in
braces, and with hyphens after `urn:uuid:`.
-/

namespace ContestPlatform

/-- A 128-bit identifier, ordered as a number. -/
structure Uuid where
  /-- The bits, most significant first. -/
  bits : BitVec 128
deriving DecidableEq

namespace Uuid

/-- The bits as a number. -/
def toNat (u : Uuid) : Nat :=
  u.bits.toNat

instance : LT Uuid := ⟨fun a b => a.toNat < b.toNat⟩
instance : LE Uuid := ⟨fun a b => a.toNat ≤ b.toNat⟩
instance (a b : Uuid) : Decidable (a < b) := inferInstanceAs (Decidable (a.toNat < b.toNat))
instance (a b : Uuid) : Decidable (a ≤ b) := inferInstanceAs (Decidable (a.toNat ≤ b.toNat))

/-- The identifier with the low 128 bits of a number. -/
def ofNat (n : Nat) : Uuid :=
  ⟨BitVec.ofNat 128 n⟩

instance : Inhabited Uuid := ⟨ofNat 0⟩

/-- The 32 hexadecimal digits, most significant first. -/
def digits (u : Uuid) : List Char :=
  (List.range 32).map fun i => Text.Hex.lower ((u.toNat >>> (4 * (31 - i))) % 16)

/-- The digits in groups of 8, 4, 4, 4 and 12 with hyphens between them. -/
def render (u : Uuid) : List Char :=
  let ds := u.digits
  ds.take 8 ++ '-' :: (ds.drop 8).take 4 ++ '-' :: (ds.drop 12).take 4 ++
    '-' :: (ds.drop 16).take 4 ++ '-' :: ds.drop 20

instance : ToString Uuid := ⟨fun u => String.ofList u.render⟩

/-- The printed identifier. -/
def text (u : Uuid) : String :=
  String.ofList u.render

/-- Read 32 hexadecimal digits. -/
def ofDigits? (cs : List Char) : Option Uuid :=
  if cs.length = 32 then (Text.Hex.value? cs).map ofNat else none

/-- Read groups of 8, 4, 4, 4 and 12 digits with hyphens between them. -/
def ofHyphenated? (cs : List Char) : Option Uuid :=
  if cs.length = 36 ∧ cs[8]? = some '-' ∧ cs[13]? = some '-' ∧ cs[18]? = some '-' ∧
      cs[23]? = some '-' then
    ofDigits? (cs.take 8 ++ (cs.drop 9).take 4 ++ (cs.drop 14).take 4 ++ (cs.drop 19).take 4 ++
      cs.drop 24)
  else none

/-- The words that may stand before a hyphenated identifier. -/
def urn : List Char :=
  "urn:uuid:".toList

/-- Read an identifier in any of its four forms; the length tells which one it is. -/
def read? (cs : List Char) : Option Uuid :=
  match cs.length with
  | 32 => ofDigits? cs
  | 36 => ofHyphenated? cs
  | 38 =>
    if cs.head? = some '{' ∧ cs.getLast? = some '}' then ofHyphenated? (cs.drop 1).dropLast
    else none
  | 45 =>
    if (cs.take 9).map Char.toLower = urn then ofHyphenated? (cs.drop 9) else none
  | _ => none

/-- Read an identifier from a text. -/
def ofText? (s : String) : Option Uuid :=
  read? s.toList

end Uuid

end ContestPlatform
