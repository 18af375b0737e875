import ContestPlatform.Instant.Text
import ContestPlatform.Proofs.CalendarDates
import ContestPlatform.Proofs.InstantColumns
import ContestPlatform.Proofs.IntListText
import Mathlib.Data.List.TakeWhile

/-!
# Instants that are read back

An instant that was read from a text, however it was written there, is read back from its own text.
What is read lies in the years that there are and has a second of nanoseconds, or two in the last
second of a minute; and of such an instant each printed field is read as what it stands for.

A timestamp column goes on after the last of these instants. What a column keeps of one of them lies
there only if it is within a leap second at the very end.
-/

namespace ContestPlatform

/-! ## Filled numerals -/

namespace Text.Decimal

theorem length_padded {width n : Nat} (hwidth : 0 < width) (h : n < Nat.pow 10 width) :
    (padded width n).length = width := by
  have hdigits : (ofNat n).length ≤ width :=
    (Nat.length_toDigits_le_iff (by decide) hwidth).mpr h
  simp only [padded, List.length_append, List.length_replicate]
  omega

theorem isDigit_of_mem_padded {width n : Nat} {c : Char} (h : c ∈ padded width n) :
    c.isDigit = true := by
  rcases List.mem_append.mp h with hzero | hdigit
  · obtain ⟨-, rfl⟩ := List.mem_replicate.mp hzero
    rfl
  · exact Nat.isDigit_of_mem_toDigits (by decide) (by decide) hdigit

theorem padded_ne_nil (width n : Nat) : padded width n ≠ [] := by
  simp [padded, ofNat, Nat.toDigits_ne_nil]

/-- A numeral begins with a digit. -/
theorem exists_padded_cons (width n : Nat) :
    ∃ d ds, padded width n = d :: ds ∧ d.isDigit = true := by
  obtain ⟨d, ds, hds⟩ := List.exists_cons_of_ne_nil (padded_ne_nil width n)
  exact ⟨d, ds, hds, isDigit_of_mem_padded (hds ▸ List.mem_cons_self)⟩

@[simp] theorem ofDigitChars_padded (width n : Nat) :
    Nat.ofDigitChars 10 (padded width n) 0 = n := by
  simp only [padded, Nat.ofDigitChars_append, Nat.ofDigitChars_replicate_zero, Nat.mul_zero]
  exact Nat.ofDigitChars_ten_toDigits

end Text.Decimal

/-! ## Scanners -/

namespace Text.Scan

section

variable {α β : Type} {scan : Scan α} {next : α → Scan β} {P : α → Prop} {Q : β → Prop}

/-- The scanner reads a value off the front of a text and leaves the rest. -/
def Reads (scan : Scan α) (cs : List Char) (a : α) (rest : List Char) : Prop :=
  scan.run cs = some (a, rest)

/-- Every value that the scanner reads has a property. -/
def Yields (scan : Scan α) (P : α → Prop) : Prop :=
  ∀ cs a rest, scan.Reads cs a rest → P a

theorem Reads.bind {cs rest rest' : List Char} {a : α} {b : β} (h : scan.Reads cs a rest)
    (h' : (next a).Reads rest b rest') : (scan >>= next).Reads cs b rest' := by
  unfold Reads at h h' ⊢
  rw [StateT.run_bind, h]
  exact h'

theorem Yields.bind (h : scan.Yields P) (h' : ∀ a, P a → (next a).Yields Q) :
    (scan >>= next).Yields Q := by
  intro cs b rest hb
  unfold Reads at hb
  rw [StateT.run_bind] at hb
  obtain ⟨⟨a, left⟩, ha, hnext⟩ := Option.bind_eq_some_iff.mp hb
  exact h' a (h cs a left ha) left b rest hnext

theorem yields_true (scan : Scan α) : scan.Yields fun _ => True :=
  fun _ _ _ _ => trivial

theorem yields_bind (h : ∀ a, (next a).Yields Q) : (scan >>= next).Yields Q :=
  (yields_true scan).bind fun a _ => h a

theorem yields_pure {a : α} (h : P a) : (pure a : Scan α).Yields P := by
  intro cs b rest hb
  obtain ⟨rfl, -⟩ : a = b ∧ cs = rest := by simpa [Reads] using hb
  exact h

theorem yields_failure : (failure : Scan α).Yields P := by
  intro cs a rest h
  simp [Reads] at h

/-- Where a step fails if a test holds, the test does not hold after it. -/
theorem yields_unless {c : Prop} [Decidable c] {next : PUnit → Scan β}
    (h : ¬ c → (next ()).Yields Q) : (if c then failure >>= next else next ()).Yields Q := by
  split_ifs with hc
  · exact (yields_failure (P := fun _ => False)).bind fun _ h => h.elim
  · exact h hc

theorem reads_get {cs rest : List Char} {b : β} {next : List Char → Scan β}
    (h : (next cs).Reads cs b rest) : (get >>= next : Scan β).Reads cs b rest :=
  h

theorem reads_set {cs rest rest' : List Char} {b : β} {next : Scan β} (h : next.Reads cs b rest) :
    (do set cs; next : Scan β).Reads rest' b rest :=
  h

/-- Nothing is skipped before a character that is not blank. -/
theorem reads_blanks {c : Char} (h : isBlank c = false) (cs : List Char) :
    blanks.Reads (c :: cs) () (c :: cs) := by
  show some ((), trimStart (c :: cs)) = _
  rw [trimStart, List.dropWhile_cons_of_neg (by simp [h])]

theorem reads_exactly (c : Char) (cs : List Char) : (exactly c).Reads (c :: cs) () cs := by
  simp [Reads, exactly]

/-- Digits are read as a number, up to the number of digits that it may have. -/
theorem reads_natUpTo {ds : List Char} (hne : ds ≠ []) (h : ∀ d ∈ ds, d.isDigit = true)
    (rest : List Char) :
    (natUpTo ds.length).Reads (ds ++ rest) (Nat.ofDigitChars 10 ds 0) rest := by
  have htake : ds.takeWhile Char.isDigit = ds := List.takeWhile_eq_self_iff.mpr h
  have hempty : ds.isEmpty = false := by simpa using hne
  have hdigits : (digitsUpTo ds.length).Reads (ds ++ rest) ds rest := by
    refine reads_get ?_
    simp only [List.take_left, List.drop_left, htake, hempty]
    rfl
  exact hdigits.bind rfl

/-- Digits are read up to a character that is not a digit. -/
theorem reads_digits {ds : List Char} (hne : ds ≠ []) (h : ∀ d ∈ ds, d.isDigit = true) {c : Char}
    (hc : c.isDigit = false) (rest : List Char) :
    digits.Reads (ds ++ c :: rest) ds (c :: rest) := by
  have htake : (ds ++ c :: rest).takeWhile Char.isDigit = ds := by
    rw [List.takeWhile_append_of_pos h, List.takeWhile_cons_of_neg (by simp [hc]), List.append_nil]
  have hdrop : (ds ++ c :: rest).dropWhile Char.isDigit = c :: rest := by
    rw [List.dropWhile_append_of_pos h, List.dropWhile_cons_of_neg (by simp [hc])]
  have hempty : ds.isEmpty = false := by simpa using hne
  refine reads_get ?_
  simp only [htake, hdrop, hempty]
  rfl

end

end Text.Scan

namespace Instant

open Text (Scan)
open Text.Decimal (padded length_padded isDigit_of_mem_padded padded_ne_nil exists_padded_cons
  ofDigitChars_padded)

/-! ## Fields -/

/-- No digit is blank. -/
theorem reads_blanks_padded (width n : Nat) (rest : List Char) :
    Scan.blanks.Reads (padded width n ++ rest) () (padded width n ++ rest) := by
  obtain ⟨d, ds, hds, hdigit⟩ := exists_padded_cons width n
  rw [hds, List.cons_append]
  exact Scan.reads_blanks (IntList.isBlank_eq_false (.inr (.inr hdigit))) _

theorem reads_field {n : Nat} (h : n < 100) (rest : List Char) :
    scanField.Reads (padded 2 n ++ rest) n rest := by
  have hread := Scan.reads_natUpTo (padded_ne_nil 2 n) (fun _ => isDigit_of_mem_padded) rest
  rw [length_padded (by decide) h, ofDigitChars_padded] at hread
  exact (reads_blanks_padded 2 n rest).bind hread

/-- A numeral is read up to a character that is not a digit. -/
theorem reads_digits_padded (width n : Nat) {c : Char} (hc : c.isDigit = false) (rest : List Char) :
    Scan.digits.Reads (padded width n ++ c :: rest) (padded width n) (c :: rest) :=
  Scan.reads_digits (padded_ne_nil width n) (fun _ => isDigit_of_mem_padded) hc rest

theorem reads_separator {c : Char} (h : Text.isBlank c = false) (rest : List Char) :
    (scanSeparator c).Reads (c :: rest) () rest :=
  (Scan.reads_blanks h rest).bind (Scan.reads_exactly c rest)

/-- A year is read up to the hyphen after it, with a sign or without. -/
theorem reads_year (year : Int) (rest : List Char) :
    scanYear.Reads (renderYear year ++ '-' :: rest) year ('-' :: rest) := by
  unfold renderYear scanYear
  split_ifs with hfour hneg
  · -- Four digits without a sign.
    obtain ⟨d, ds, hds, hdigit⟩ := exists_padded_cons 4 year.toNat
    have hread := Scan.reads_natUpTo (padded_ne_nil 4 year.toNat)
      (fun _ => isDigit_of_mem_padded) ('-' :: rest)
    have hlt : year.toNat < 10000 := by omega
    have hyear : (year.toNat : Int) = year := by omega
    rw [length_padded (by decide) hlt, ofDigitChars_padded] at hread
    refine (reads_blanks_padded 4 year.toNat _).bind (Scan.reads_get ?_)
    rw [hds] at hread ⊢
    split
    case h_1 heq =>
      obtain ⟨rfl, -⟩ := List.cons.inj heq
      exact absurd hdigit (by decide)
    case h_2 heq =>
      obtain ⟨rfl, -⟩ := List.cons.inj heq
      exact absurd hdigit (by decide)
    case h_3 =>
      exact hread.bind (congrArg (fun y => some (y, _)) hyear)
  · -- A minus sign, and at least four digits.
    have hread := reads_digits_padded 4 year.natAbs (show '-'.isDigit = false by decide) rest
    have hyear : -(year.natAbs : Int) = year := by omega
    refine (Scan.reads_blanks (by decide) _).bind (Scan.reads_get (Scan.reads_set ?_))
    refine hread.bind ?_
    rw [ofDigitChars_padded, hyear]
    rfl
  · -- A plus sign, and at least four digits.
    have hread := reads_digits_padded 4 year.natAbs (show '-'.isDigit = false by decide) rest
    have hyear : (year.natAbs : Int) = year := by omega
    refine (Scan.reads_blanks (by decide) _).bind (Scan.reads_get (Scan.reads_set ?_))
    refine hread.bind ?_
    rw [ofDigitChars_padded, hyear]
    rfl

/-- The date of a day is read as the day. -/
theorem reads_date {day : Int} (h : isYear (Calendar.dateOf day).1 = true) (rest : List Char) :
    scanDate.Reads
      (renderYear (Calendar.dateOf day).1 ++ '-' :: (padded 2 (Calendar.dateOf day).2.1 ++
        '-' :: (padded 2 (Calendar.dateOf day).2.2 ++ rest))) day rest := by
  have hdate := Calendar.isDate_dateOf day
  have hnumber := Calendar.dayNumber_dateOf day
  generalize Calendar.dateOf day = date at h hdate hnumber ⊢
  obtain ⟨year, month, ofMonth⟩ := date
  have hbounds : month < 100 ∧ ofMonth < 100 := by
    simp only [Calendar.isDate, Bool.and_eq_true, decide_eq_true_eq] at hdate
    obtain ⟨⟨⟨-, hmonth⟩, -⟩, hday⟩ := hdate
    have hlength := Calendar.daysInMonth_le year month
    omega
  refine (reads_year year _).bind ((reads_separator (by decide) _).bind ?_)
  refine (reads_field hbounds.1 _).bind ((reads_separator (by decide) _).bind ?_)
  refine (reads_field hbounds.2 _).bind ?_
  rw [if_pos (by simp [h, hdate]), hnumber]
  rfl

/-! ## Times -/

/-- The fraction of a second, if there is one. -/
def scanFraction : Scan Nat := do
  match ← get with
  | '.' :: rest => do
    set rest
    return nanosOfDigits (← Scan.digits)
  | _ => return 0

/-- The time of day that fields stand for, if there is one. -/
def timeOf (hour minute second nanos : Nat) : Scan (Nat × Nat) := do
  if 23 < hour || 59 < minute || 60 < second then failure
  let minutes := hour * 3600 + minute * 60
  if second = 60 then return (minutes + 59, nanos + nanosPerSecond)
  return (minutes + second, nanos)

/-- What follows the fraction does not depend on which form it had. -/
theorem fraction_bind {β : Type} (next : Nat → Scan β) : scanFraction >>= next = (do
    match ← get with
    | '.' :: rest => do
      set rest
      next (nanosOfDigits (← Scan.digits))
    | _ => next 0) := by
  unfold scanFraction
  rw [bind_assoc]
  refine bind_congr fun cs => ?_
  split
  · rw [bind_assoc]
    refine bind_congr fun _ => ?_
    rw [bind_assoc]
    exact bind_congr fun ds => pure_bind _ next
  · rfl

/-- A time is read field by field, and what the fields stand for is looked at last. -/
theorem scanTime_eq : scanTime = (do
    let hour ← scanField
    scanSeparator ':'
    let minute ← scanField
    scanSeparator ':'
    let second ← scanField
    let nanos ← scanFraction
    timeOf hour minute second nanos) := by
  unfold scanTime
  refine bind_congr fun hour => bind_congr fun _ => bind_congr fun minute => bind_congr fun _ =>
    bind_congr fun second => ?_
  rw [fraction_bind]
  rfl

/-- A point and up to nine digits are read as the nanoseconds that they stand for: zeros take the
    place of the digits that are left out. -/
theorem reads_point {width n nanos : Nat} (hwidth : 0 < width) (hnine : width ≤ 9)
    (hn : n < Nat.pow 10 width) (hvalue : n * Nat.pow 10 (9 - width) = nanos) (rest : List Char) :
    scanFraction.Reads ('.' :: padded width n ++ 'Z' :: rest) nanos ('Z' :: rest) := by
  have hlength := length_padded hwidth hn
  have hread := reads_digits_padded width n (show 'Z'.isDigit = false by decide) rest
  have hnanos : nanosOfDigits (padded width n) = nanos := by
    have htake : (padded width n).take 9 = padded width n := List.take_of_length_le (by omega)
    simp only [nanosOfDigits, htake, hlength, Nat.ofDigitChars_append, ofDigitChars_padded,
      Nat.ofDigitChars_replicate_zero]
    rw [← hvalue, Nat.mul_comm]
    rfl
  refine Scan.reads_get (Scan.reads_set (hread.bind ?_))
  rw [hnanos]
  rfl

theorem reads_fraction {nanos : Nat} (h : nanos < nanosPerSecond) (rest : List Char) :
    scanFraction.Reads (renderFraction nanos ++ 'Z' :: rest) nanos ('Z' :: rest) := by
  have hsecond : nanosPerSecond = 1000000000 := rfl
  unfold renderFraction
  split_ifs with hzero hmilli hmicro
  · subst hzero
    rfl
  · exact reads_point (by decide) (by decide) (show nanos / 1000000 < 1000 by omega)
      (show nanos / 1000000 * 1000000 = nanos by omega) rest
  · exact reads_point (by decide) (by decide) (show nanos / 1000 < 1000000 by omega)
      (show nanos / 1000 * 1000 = nanos by omega) rest
  · exact reads_point (by decide) (by decide) h (Nat.mul_one nanos) rest

/-- The fields of a second of the day stand for it; a leap second has field 60. -/
theorem reads_timeOf {ofDay nanos : Nat} (hday : ofDay < 86400)
    (hnanos : nanos < nanosPerSecond ∨ (ofDay % 60 = 59 ∧ nanos < 2 * nanosPerSecond))
    (cs : List Char) :
    (timeOf (ofDay / 3600) (ofDay / 60 % 60) (ofDay % 60 + nanos / nanosPerSecond)
      (nanos % nanosPerSecond)).Reads cs (ofDay, nanos) cs := by
  have hfields : ∀ second ≤ 60,
      ¬ (23 < ofDay / 3600 || 59 < ofDay / 60 % 60 || 60 < second) = true := by
    intro second hsecond
    simp only [Bool.or_eq_true, decide_eq_true_eq]
    omega
  have hleap : nanos / nanosPerSecond = 0 ∧ nanos % nanosPerSecond = nanos ∨
      nanos / nanosPerSecond = 1 ∧ nanos % nanosPerSecond + nanosPerSecond = nanos ∧
        ofDay % 60 = 59 := by
    simp only [nanosPerSecond] at hnanos ⊢
    omega
  unfold timeOf
  rcases hleap with ⟨hquotient, hrest⟩ | ⟨hquotient, hrest, hlast⟩
  · have hsum : ofDay / 3600 * 3600 + ofDay / 60 % 60 * 60 + ofDay % 60 = ofDay := by omega
    rw [hquotient, hrest, Nat.add_zero, if_neg (hfields _ (by omega)), if_neg (by omega), hsum]
    rfl
  · have hsum : ofDay / 3600 * 3600 + ofDay / 60 % 60 * 60 + 59 = ofDay := by omega
    rw [hquotient, hlast, if_neg (hfields _ (by decide)), if_pos rfl, hsum, hrest]
    rfl

theorem reads_time {ofDay nanos : Nat} (hday : ofDay < 86400)
    (hnanos : nanos < nanosPerSecond ∨ (ofDay % 60 = 59 ∧ nanos < 2 * nanosPerSecond))
    (rest : List Char) :
    scanTime.Reads
      (padded 2 (ofDay / 3600) ++ ':' :: (padded 2 (ofDay / 60 % 60) ++
        ':' :: (padded 2 (ofDay % 60 + nanos / nanosPerSecond) ++
          (renderFraction (nanos % nanosPerSecond) ++ 'Z' :: rest))))
      (ofDay, nanos) ('Z' :: rest) := by
  have hfraction : nanos % nanosPerSecond < nanosPerSecond := Nat.mod_lt _ (by decide)
  have hsecond : ofDay % 60 + nanos / nanosPerSecond < 100 := by
    simp only [nanosPerSecond] at hnanos ⊢
    omega
  rw [scanTime_eq]
  refine (reads_field (by omega) _).bind ((reads_separator (by decide) _).bind ?_)
  refine (reads_field (by omega) _).bind ((reads_separator (by decide) _).bind ?_)
  refine (reads_field hsecond _).bind ((reads_fraction hfraction rest).bind ?_)
  exact reads_timeOf hday hnanos _

/-! ## Instants that texts stand for -/

/-- An instant of a year that there is, with no more nanoseconds than its second has: only the last
    second of a minute may have those of a leap second too. -/
structure IsTold (t : Instant) : Prop where
  year : isYear (Calendar.dateOf (t.seconds / 86400)).1 = true
  nanos : t.nanos < nanosPerSecond ∨ (t.seconds % 60 = 59 ∧ t.nanos < 2 * nanosPerSecond)

/-- Such an instant is read back from its text. -/
theorem IsTold.ofText?_text {t : Instant} (h : t.IsTold) : ofText? t.text = some t := by
  have hday : (t.seconds % 86400).toNat < 86400 := by omega
  have hnanos : t.nanos < nanosPerSecond ∨
      ((t.seconds % 86400).toNat % 60 = 59 ∧ t.nanos < 2 * nanosPerSecond) := by
    rcases h.nanos with hnanos | ⟨hlast, hnanos⟩
    · exact .inl hnanos
    · exact .inr ⟨by omega, hnanos⟩
  have hseconds : t.seconds / 86400 * 86400 + ((t.seconds % 86400).toNat : Int) - 0 =
      t.seconds := by
    omega
  have hread : scan.Reads t.render t [] := by
    have hzone : scanOffset.Reads ['Z'] 0 [] := rfl
    unfold render scan
    simp only [List.append_assoc, List.cons_append]
    refine (reads_date h.year _).bind ?_
    refine Scan.Reads.bind (a := 'T') rfl ?_
    refine (reads_time hday hnanos []).bind (hzone.bind ?_)
    simp only [hseconds, h.year, if_true]
    rfl
  have hrun : scan.run t.render = some (t, []) := hread
  simp [ofText?, text, Scan.whole, hrun, Text.trimStart]

/-! ## What texts stand for -/

/-- A numeral is less than the power of ten with as many zeros as it has digits. -/
theorem ofDigitChars_lt {ds : List Char} (h : ∀ d ∈ ds, d.isDigit = true) (value : Nat) :
    Nat.ofDigitChars 10 ds value < Nat.pow 10 ds.length * (value + 1) := by
  induction ds generalizing value with
  | nil => simp
  | cons d rest ih =>
    have hdigit : d.toNat - '0'.toNat < 10 := by
      have hrange : d.toNat ≤ 57 := by
        have hd := h d List.mem_cons_self
        simp only [Char.isDigit, Bool.and_eq_true, decide_eq_true_eq, UInt32.le_iff_toNat_le] at hd
        exact hd.2
      show d.toNat - 48 < 10
      omega
    have hrest := ih fun e he => h e (List.mem_cons_of_mem d he)
    rw [Nat.ofDigitChars_cons, List.length_cons]
    calc Nat.ofDigitChars 10 rest (10 * value + (d.toNat - '0'.toNat))
        < Nat.pow 10 rest.length * (10 * value + (d.toNat - '0'.toNat) + 1) := hrest _
      _ ≤ Nat.pow 10 rest.length * (10 * (value + 1)) := Nat.mul_le_mul_left _ (by omega)
      _ = Nat.pow 10 (rest.length + 1) * (value + 1) := (Nat.mul_assoc _ _ _).symm

/-- Nine digits do not make a second. -/
theorem nanosOfDigits_lt {ds : List Char} (h : ∀ d ∈ ds, d.isDigit = true) :
    nanosOfDigits ds < nanosPerSecond := by
  have hdigits : ∀ d ∈ ds.take 9 ++ List.replicate (9 - (ds.take 9).length) '0',
      d.isDigit = true := by
    intro d hd
    rcases List.mem_append.mp hd with hd | hd
    · exact h d (List.mem_of_mem_take hd)
    · rw [(List.mem_replicate.mp hd).2]
      rfl
  have hlength : (ds.take 9 ++ List.replicate (9 - (ds.take 9).length) '0').length = 9 := by
    simp only [List.length_append, List.length_replicate, List.length_take]
    omega
  have hlt := ofDigitChars_lt hdigits 0
  rwa [hlength] at hlt

theorem yields_digits : Scan.digits.Yields fun ds => ∀ d ∈ ds, d.isDigit = true := by
  refine Scan.yields_bind fun cs => Scan.yields_unless fun _ => ?_
  refine Scan.yields_bind fun _ => Scan.yields_pure fun d hd => ?_
  exact List.mem_takeWhile_imp hd

theorem yields_fraction : scanFraction.Yields (· < nanosPerSecond) := by
  refine Scan.yields_bind fun cs => ?_
  split
  · refine Scan.yields_bind fun _ => yields_digits.bind fun ds hds => ?_
    exact Scan.yields_pure (nanosOfDigits_lt hds)
  · exact Scan.yields_pure (by decide)

/-- A time of day has the nanoseconds of a leap second only in the last second of a minute. -/
theorem yields_timeOf {hour minute second nanos : Nat} (h : nanos < nanosPerSecond) :
    (timeOf hour minute second nanos).Yields fun time =>
      time.2 < nanosPerSecond ∨ (time.1 % 60 = 59 ∧ time.2 < 2 * nanosPerSecond) := by
  unfold timeOf
  refine Scan.yields_unless fun _ => ?_
  split
  · exact Scan.yields_pure (.inr ⟨by omega, by omega⟩)
  · exact Scan.yields_pure (.inl h)

theorem yields_time : scanTime.Yields fun time =>
    time.2 < nanosPerSecond ∨ (time.1 % 60 = 59 ∧ time.2 < 2 * nanosPerSecond) := by
  rw [scanTime_eq]
  refine Scan.yields_bind fun hour => Scan.yields_bind fun _ => Scan.yields_bind fun minute =>
    Scan.yields_bind fun _ => Scan.yields_bind fun second => ?_
  exact yields_fraction.bind fun nanos hnanos => yields_timeOf hnanos

theorem yields_hoursMinutes : scanHoursMinutes.Yields fun offset => offset % 60 = 0 := by
  refine Scan.yields_bind fun hours => Scan.yields_bind fun _ => Scan.yields_bind fun minutes => ?_
  refine Scan.yields_unless fun _ => Scan.yields_pure ?_
  omega

/-- Offsets are whole minutes. -/
theorem yields_offset : scanOffset.Yields fun offset => offset % 60 = 0 := by
  have hzero : ∀ cs : List Char, (do set cs; return 0 : Scan Int).Yields
      fun offset => offset % 60 = 0 := by
    intro cs
    exact Scan.yields_bind fun _ => Scan.yields_pure rfl
  have hminus : ∀ cs : List Char, (do set cs; return -(← scanHoursMinutes) : Scan Int).Yields
      fun offset => offset % 60 = 0 := by
    intro cs
    refine Scan.yields_bind fun _ => yields_hoursMinutes.bind fun offset hoffset => ?_
    exact Scan.yields_pure (by omega)
  refine Scan.yields_bind fun _ => Scan.yields_bind fun cs => ?_
  split
  case h_1 | h_2 => exact hzero _
  case h_3 => exact Scan.yields_bind fun _ => yields_hoursMinutes
  case h_4 | h_5 => exact hminus _
  case h_6 =>
    split
    · exact hzero _
    · exact Scan.yields_failure
  case h_7 => exact Scan.yields_failure

theorem yields_scan : scan.Yields IsTold := by
  refine Scan.yields_bind fun day => Scan.yields_bind fun _ => ?_
  refine yields_time.bind fun ⟨ofDay, nanos⟩ hnanos => ?_
  refine yields_offset.bind fun offset hoffset => ?_
  simp only
  split
  · refine Scan.yields_pure ⟨‹_›, ?_⟩
    rcases hnanos with hnanos | ⟨hlast, hnanos⟩
    · exact .inl hnanos
    · refine .inr ⟨?_, hnanos⟩
      simp only at hlast ⊢
      omega
  · exact Scan.yields_failure

theorem isTold_of_ofText? {s : String} {t : Instant} (h : ofText? s = some t) : t.IsTold := by
  unfold ofText? Scan.whole at h
  split at h
  case h_1 u rest hrun =>
    split at h
    · exact Option.some.inj h ▸ yields_scan _ _ _ hrun
    · exact nomatch h
  case h_2 => exact nomatch h

/-- These are the instants that texts stand for. -/
theorem exists_ofText?_iff {t : Instant} : (∃ s, ofText? s = some t) ↔ t.IsTold := by
  constructor
  · rintro ⟨s, h⟩
    exact isTold_of_ofText? h
  · intro h
    exact ⟨t.text, h.ofText?_text⟩

/-! ## The last instant -/

/-- The last instant of the last year that is not within a leap second,
    262142-12-31T23:59:59.999999999Z. -/
def latest : Instant :=
  ⟨8210266876799, 999999999⟩

theorem IsTold.seconds_le {t : Instant} (h : t.IsTold) : t.seconds ≤ latest.seconds := by
  have hyear := h.year
  simp only [isYear, Bool.and_eq_true, decide_eq_true_eq] at hyear
  have hday := Calendar.dayNumber_lt_newYear (Calendar.isDate_dateOf (t.seconds / 86400))
  rw [Calendar.dayNumber_dateOf] at hday
  have hnewYear := Calendar.newYear_mono (Int.add_le_add_right hyear.2 1)
  have hend : Calendar.dayNumber (262142 + 1) 1 1 * 86400 = latest.seconds + 1 := by decide
  omega

/-- A column counts a leap second into the second after it, so from the last second of the last year
    it leads out of the years that there are. From anywhere else it does not. -/
theorem IsTold.ofStamp_le_latest_iff {t : Instant} {s : Stamp} (h : t.IsTold)
    (hs : t.stamp? = some s) :
    ofStamp s ≤ latest ↔ ¬ (t.seconds = latest.seconds ∧ t.isLeapSecond = true) := by
  have hcolumn : ofStamp s ≤ latest ↔
      t.columnNanos < (latest.seconds + 1 - columnEpoch) * nanosPerSecond := by
    rw [stamp?_eq_some hs, le_iff]
    simp only [ofStamp, latest, columnEpoch, nanosPerSecond]
    rcases Int.le_total 0 t.columnNanos with hafter | hbefore
    · rw [Int.tdiv_eq_ediv_of_nonneg hafter]
      omega
    · have hmicros := Int.tdiv_le_tdiv (c := 1000) (by decide) hbefore
      rw [Int.zero_tdiv] at hmicros
      omega
  have hseconds := h.seconds_le
  have hnanos : t.nanos < 2 * nanosPerSecond := by
    rcases h.nanos with hnanos | ⟨-, hnanos⟩
    · exact Nat.lt_of_lt_of_le hnanos (by decide)
    · exact hnanos
  rw [hcolumn]
  simp only [isLeapSecond, decide_eq_true_eq]
  simp only [latest, columnNanos, columnEpoch, nanosPerSecond] at hseconds hnanos ⊢
  omega

example : (ofText? "+262142-12-31T23:59:60Z").bind stamp? = some 8210266876800000000 ∧
    ¬ ofStamp 8210266876800000000 ≤ latest := by
  decide +kernel

end Instant

end ContestPlatform
