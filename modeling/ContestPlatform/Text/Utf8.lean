/-!
# UTF-8

Text as bytes. A strict reading accepts well-formed UTF-8 only; a lenient one puts U+FFFD in the
place of every ill-formed part.
-/

namespace ContestPlatform.Text.Utf8

/-- The bytes of a text. -/
def encode (s : String) : List UInt8 :=
  s.toUTF8.data.toList

/-- The text that well-formed bytes stand for. -/
def decode? (bs : List UInt8) : Option String :=
  String.fromUTF8? ⟨bs.toArray⟩

/-- A character begun but not finished: the bytes still to come, the range that the next one has
    to lie in, and the bits read so far. -/
structure Partial where
  /-- How many bytes are still missing. -/
  missing : Nat
  /-- The least byte that may come next. -/
  low : Nat
  /-- The greatest byte that may come next. -/
  high : Nat
  /-- The bits read so far. -/
  bits : Nat

/-- The sign that stands for an ill-formed part. -/
def replacement : Char := '\uFFFD'

/-- Read the first byte of a character: what it writes, and what it leaves begun. -/
def start (b : UInt8) : List Char × Option Partial :=
  let n := b.toNat
  if n < 0x80 then ([Char.ofNat n], none)
  else if 0xC2 ≤ n ∧ n ≤ 0xDF then ([], some ⟨1, 0x80, 0xBF, n - 0xC0⟩)
  else if n = 0xE0 then ([], some ⟨2, 0xA0, 0xBF, 0⟩)
  else if n = 0xED then ([], some ⟨2, 0x80, 0x9F, 0xD⟩)
  else if 0xE1 ≤ n ∧ n ≤ 0xEF then ([], some ⟨2, 0x80, 0xBF, n - 0xE0⟩)
  else if n = 0xF0 then ([], some ⟨3, 0x90, 0xBF, 0⟩)
  else if n = 0xF4 then ([], some ⟨3, 0x80, 0x8F, 4⟩)
  else if 0xF1 ≤ n ∧ n ≤ 0xF3 then ([], some ⟨3, 0x80, 0xBF, n - 0xF0⟩)
  else ([replacement], none)

/-- Read one byte after what was left begun. A byte that cannot go on ends the ill-formed part
    and is read as a first byte. -/
def step (pending : Option Partial) (b : UInt8) : List Char × Option Partial :=
  match pending with
  | none => start b
  | some p =>
    let n := b.toNat
    if p.low ≤ n ∧ n ≤ p.high then
      let bits := 64 * p.bits + (n - 0x80)
      if p.missing ≤ 1 then ([Char.ofNat bits], none)
      else ([], some ⟨p.missing - 1, 0x80, 0xBF, bits⟩)
    else
      let (out, next) := start b
      (replacement :: out, next)

/-- The text that bytes stand for, with U+FFFD for each ill-formed part. -/
def decodeLossy (bs : List UInt8) : String :=
  let (out, pending) := bs.foldl
    (fun (acc : List Char × Option Partial) b =>
      let (out, next) := step acc.2 b
      (out.reverse ++ acc.1, next))
    ([], none)
  let out := if pending.isSome then replacement :: out else out
  String.ofList out.reverse

end ContestPlatform.Text.Utf8
