import ContestPlatform.Text.Hex
import ContestPlatform.Text.Utf8

/-!
# Percent-encoding

`%` and two hexadecimal digits stand for one byte. A percent sign that is not followed by two
digits stands for itself.
-/

namespace ContestPlatform.Text.Percent

/-- The value of a byte that is a hexadecimal digit in ASCII. -/
private def digit? (b : UInt8) : Option Nat :=
  Hex.digit? (Char.ofNat b.toNat)

/-- The bytes that a percent-encoded text stands for. -/
def decode : List UInt8 → List UInt8
  | [] => []
  | b :: rest =>
    if b = 0x25 then
      match rest with
      | hi :: lo :: rest' =>
        match digit? hi, digit? lo with
        | some h, some l => UInt8.ofNat (16 * h + l) :: decode rest'
        | _, _ => b :: decode (hi :: lo :: rest')
      | [x] => [b, x]
      | [] => [b]
    else b :: decode rest

/-- The text of a percent-encoded part of a path, if its bytes are well-formed. -/
def decodeText? (s : String) : Option String :=
  Utf8.decode? (decode (Utf8.encode s))

/-- The text of a percent-encoded part of a form, where a plus sign stands for a space and
    ill-formed bytes for U+FFFD. -/
def decodeForm (s : String) : String :=
  Utf8.decodeLossy (decode ((Utf8.encode s).map fun b => if b = 0x2B then 0x20 else b))

/-- A byte that is written as itself in the path of an object. -/
def isPlain (b : UInt8) : Bool :=
  let c := Char.ofNat b.toNat
  c.isAlphanum || c == '-' || c == '.' || c == '_' || c == '~' || c == '/'

/-- One byte as a percent sign and two upper-case digits. -/
def encodeByte (b : UInt8) : List Char :=
  ['%', Hex.upper (b.toNat / 16), Hex.upper (b.toNat % 16)]

/-- The path of an object: letters, digits, `-`, `.`, `_`, `~` and `/` stay, all other bytes are
    encoded. -/
def encodePath (s : String) : String :=
  String.ofList ((Utf8.encode s).flatMap fun b =>
    if isPlain b then [Char.ofNat b.toNat] else encodeByte b)

end ContestPlatform.Text.Percent
