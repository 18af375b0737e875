import ContestPlatform.Instant.Basic
import ContestPlatform.Instant.Calendar
import ContestPlatform.Text.Decimal
import ContestPlatform.Text.Scan

/-!
# Instants as text

An instant is printed as `YYYY-MM-DDTHH:MM:SS`, the shortest exact fraction of 3, 6 or 9 digits if
there is one, and `Z`. It is read leniently: fields need not be filled up with zeros, blanks may
stand before a field or a separator, and the offset may be `Z`, `UTC` or hours and minutes.
-/

namespace ContestPlatform.Instant

open Text (Scan)
open Text.Decimal (padded)

/-! ## Printing -/

/-- The year in at least four digits, signed outside of 0 to 9999. -/
def renderYear (year : Int) : List Char :=
  if 0 ≤ year ∧ year ≤ 9999 then padded 4 year.toNat
  else (if year < 0 then '-' else '+') :: padded 4 year.natAbs

/-- The fraction of a second: nothing, or a point and 3, 6 or 9 digits. -/
def renderFraction (nanos : Nat) : List Char :=
  if nanos = 0 then []
  else if nanos % 1000000 = 0 then '.' :: padded 3 (nanos / 1000000)
  else if nanos % 1000 = 0 then '.' :: padded 6 (nanos / 1000)
  else '.' :: padded 9 nanos

/-- The printed instant. -/
def render (t : Instant) : List Char :=
  let (year, month, day) := Calendar.dateOf (t.seconds / 86400)
  let ofDay := (t.seconds % 86400).toNat
  renderYear year ++ '-' :: padded 2 month ++ '-' :: padded 2 day ++
    'T' :: padded 2 (ofDay / 3600) ++ ':' :: padded 2 (ofDay / 60 % 60) ++
    ':' :: padded 2 (ofDay % 60 + t.nanos / nanosPerSecond) ++
    renderFraction (t.nanos % nanosPerSecond) ++ ['Z']

/-- The printed instant as a text. -/
def text (t : Instant) : String :=
  String.ofList t.render

/-! ## Reading -/

/-- The years that have instants. -/
def isYear (year : Int) : Bool :=
  -262143 ≤ year && year ≤ 262142

/-- A year: at most four digits, or a sign and any number of them. -/
def scanYear : Scan Int := do
  Scan.blanks
  match ← get with
  | '-' :: rest =>
    set rest
    return -(Nat.ofDigitChars 10 (← Scan.digits) 0 : Int)
  | '+' :: rest =>
    set rest
    return (Nat.ofDigitChars 10 (← Scan.digits) 0 : Int)
  | _ => return (← Scan.natUpTo 4 : Nat)

/-- A field of one or two digits. -/
def scanField : Scan Nat := do
  Scan.blanks
  Scan.natUpTo 2

/-- A separator, with blanks before it. -/
def scanSeparator (c : Char) : Scan Unit := do
  Scan.blanks
  Scan.exactly c

/-- A date that exists, as a day number. -/
def scanDate : Scan Int := do
  let year ← scanYear
  scanSeparator '-'
  let month ← scanField
  scanSeparator '-'
  let day ← scanField
  if isYear year && Calendar.isDate year month day then
    return Calendar.dayNumber year month day
  failure

/-- The nanoseconds that the first nine digits of a fraction stand for. -/
def nanosOfDigits (ds : List Char) : Nat :=
  let kept := ds.take 9
  Nat.ofDigitChars 10 (kept ++ List.replicate (9 - kept.length) '0') 0

/-- A time of day: seconds since midnight and nanoseconds. Second 60 is a leap second. -/
def scanTime : Scan (Nat × Nat) := do
  let hour ← scanField
  scanSeparator ':'
  let minute ← scanField
  scanSeparator ':'
  let second ← scanField
  let nanos ← match ← get with
    | '.' :: rest => do
      set rest
      pure (nanosOfDigits (← Scan.digits))
    | _ => pure 0
  if 23 < hour || 59 < minute || 60 < second then failure
  let minutes := hour * 3600 + minute * 60
  if second = 60 then return (minutes + 59, nanos + nanosPerSecond)
  return (minutes + second, nanos)

/-- Hours and minutes after a sign, in seconds; a colon and blanks may stand between them. -/
def scanHoursMinutes : Scan Int := do
  let hours ← Scan.twoDigits
  Scan.skipWhile fun c => c == ':' || Text.isBlank c
  let minutes ← Scan.twoDigits
  if 23 < hours || 59 < minutes then failure
  return hours * 3600 + minutes * 60

/-- The offset from universal time in seconds. -/
def scanOffset : Scan Int := do
  Scan.blanks
  match ← get with
  | 'Z' :: rest => set rest; return 0
  | 'z' :: rest => set rest; return 0
  | '+' :: rest => set rest; scanHoursMinutes
  | '-' :: rest => set rest; return -(← scanHoursMinutes)
  | '\u2212' :: rest => set rest; return -(← scanHoursMinutes)
  | u :: t :: c :: rest =>
    if [u, t, c].map Char.toLower = ['u', 't', 'c'] then set rest; return 0
    else failure
  | _ => failure

/-- A date, a time and an offset. -/
def scan : Scan Instant := do
  let day ← scanDate
  let _ ← Scan.oneOf fun c => c == 'T' || c == 't' || c == ' '
  let (ofDay, nanos) ← scanTime
  let offset ← scanOffset
  let seconds := day * 86400 + ofDay - offset
  if isYear (Calendar.dateOf (seconds / 86400)).1 then return ⟨seconds, nanos⟩
  failure

/-- Read an instant; blanks may follow it. -/
def ofText? (s : String) : Option Instant :=
  Scan.whole scan s.toList

end ContestPlatform.Instant
