import ContestPlatform.Text.Blank

/-!
# Scanners

A scanner reads a value off the front of a text and leaves the rest. The steps here are the ones
that dates and times are read with.
-/

namespace ContestPlatform.Text

/-- A step that reads a value off the front of a text, or fails. -/
abbrev Scan (α : Type) : Type :=
  StateT (List Char) Option α

namespace Scan

/-- Skip leading blanks. -/
def blanks : Scan Unit :=
  modify trimStart

/-- Read one given character. -/
def exactly (c : Char) : Scan Unit := do
  match ← get with
  | d :: rest => if c = d then set rest else failure
  | [] => failure

/-- Read one character that satisfies a test. -/
def oneOf (p : Char → Bool) : Scan Char := do
  match ← get with
  | d :: rest => if p d then set rest; pure d else failure
  | [] => failure

/-- Skip characters while they satisfy a test. -/
def skipWhile (p : Char → Bool) : Scan Unit :=
  modify (List.dropWhile p)

/-- Read a nonempty run of ASCII digits and give the digits. -/
def digits : Scan (List Char) := do
  let cs ← get
  let ds := cs.takeWhile Char.isDigit
  if ds.isEmpty then failure
  set (cs.dropWhile Char.isDigit)
  pure ds

/-- Read a nonempty run of at most `width` ASCII digits and give the digits. -/
def digitsUpTo (width : Nat) : Scan (List Char) := do
  let cs ← get
  let ds := (cs.take width).takeWhile Char.isDigit
  if ds.isEmpty then failure
  set (cs.drop ds.length)
  pure ds

/-- Read a natural number of at most `width` digits. -/
def natUpTo (width : Nat) : Scan Nat := do
  return Nat.ofDigitChars 10 (← digitsUpTo width) 0

/-- Read exactly two digits. -/
def twoDigits : Scan Nat := do
  let a ← oneOf Char.isDigit
  let b ← oneOf Char.isDigit
  return Nat.ofDigitChars 10 [a, b] 0

/-- Read a whole text: the scanner has to leave nothing but blanks. -/
def whole {α : Type} (scan : Scan α) (cs : List Char) : Option α :=
  match scan.run cs with
  | some (a, rest) => if (trimStart rest).isEmpty then some a else none
  | none => none

end Scan

end ContestPlatform.Text
