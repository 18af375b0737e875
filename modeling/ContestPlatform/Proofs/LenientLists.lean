import ContestPlatform.Proofs.IntListText
import Mathlib.Data.List.Induction
import Mathlib.Data.List.TakeWhile
import Mathlib.Data.Nat.Digits.Defs
import Mathlib.Tactic.SplitIfs

/-!
# What a text lists

A column of integers may hold more than what is written to it: blanks, empty entries, entries that
are no integers and braces that stand alone. `Lists` says which integers a text lists, step by step
and without saying how to find them, and `read_eq_iff` that reading a text gives exactly these. A
`Spelling` of a list is what is written with blanks and empty entries put in anywhere; it is read as
the list.

All of this rests on two facts about trimming: the trimmed text is the only one that is left when
blanks are cut off until there are none at either end (`trim_eq_iff`), and trimming a list changes
none of its entries (`entries_trim`), because a comma is no blank.
-/

namespace ContestPlatform

namespace Text

/-! ## Trimmed texts -/

/-- A text of blanks only. -/
def AllBlank (cs : List Char) : Prop :=
  ∀ c ∈ cs, isBlank c = true

instance (cs : List Char) : Decidable (AllBlank cs) :=
  decidable_of_iff (cs.all isBlank = true) List.all_eq_true

/-- A text and what is left of it without the blanks around it. -/
structure Trims (cs t : List Char) : Prop where
  cut : ∃ front back, AllBlank front ∧ AllBlank back ∧ cs = front ++ t ++ back
  first : ∀ c, t.head? = some c → isBlank c = false
  last : ∀ c, t.getLast? = some c → isBlank c = false

variable {cs t front back : List Char}

theorem AllBlank.nil : AllBlank [] := by
  decide

theorem AllBlank.notMem {c : Char} (h : AllBlank cs) (hc : isBlank c = false) : c ∉ cs := by
  intro hmem
  rw [h c hmem] at hc
  exact nomatch hc

theorem trim_blank_append (h : AllBlank front) (cs : List Char) : trim (front ++ cs) = trim cs := by
  rw [trim, trimStart, List.dropWhile_append_of_pos h]
  rfl

theorem trim_append_blank (h : AllBlank back) (cs : List Char) : trim (cs ++ back) = trim cs := by
  have hend : ∀ ds : List Char, trimEnd (ds ++ back) = trimEnd ds := by
    intro ds
    have hblank : ∀ c ∈ back.reverse, isBlank c = true := fun c hc => h c (List.mem_reverse.mp hc)
    rw [trimEnd, List.reverse_append, List.dropWhile_append_of_pos hblank]
    rfl
  have hback : back.dropWhile isBlank = [] := List.dropWhile_eq_nil_iff.mpr h
  unfold trim trimStart
  rw [List.dropWhile_append]
  -- If all of the text is blank, nothing is left of what follows it either.
  split_ifs with hempty
  · rw [hback, List.isEmpty_iff.mp hempty]
  · exact hend _

theorem trims_trim (cs : List Char) : Trims cs (trim cs) := by
  have hstart : cs.takeWhile isBlank ++ trimStart cs = cs := List.takeWhile_append_dropWhile
  have hend : trim cs ++ ((trimStart cs).reverse.takeWhile isBlank).reverse = trimStart cs := by
    rw [trim, trimEnd, ← List.reverse_append, List.takeWhile_append_dropWhile, List.reverse_reverse]
  have hblank : ∀ ds : List Char, AllBlank (ds.takeWhile isBlank) :=
    fun ds c hc => List.mem_takeWhile_imp hc
  have hhead : ∀ (ds : List Char) (c : Char), (ds.dropWhile isBlank).head? = some c →
      isBlank c = false := by
    intro ds c hc
    have hnot := List.head?_dropWhile_not isBlank ds
    rw [hc] at hnot
    simpa using hnot
  constructor
  case cut =>
    refine ⟨cs.takeWhile isBlank, ((trimStart cs).reverse.takeWhile isBlank).reverse, hblank cs,
      ?_, ?_⟩
    · exact fun c hc => hblank _ c (List.mem_reverse.mp hc)
    · rw [List.append_assoc, hend, hstart]
  case first =>
    -- The first character is that of the text without its leading blanks.
    intro c hc
    apply hhead cs c
    rw [← trimStart, ← hend, List.head?_append, hc]
    rfl
  case last =>
    intro c hc
    rw [trim, trimEnd, List.getLast?_reverse] at hc
    exact hhead _ c hc

/-- Blanks can be cut off in one way only. -/
theorem trim_eq_iff : trim cs = t ↔ Trims cs t := by
  constructor
  · rintro rfl
    exact trims_trim cs
  · rintro ⟨⟨front, back, hfront, hback, rfl⟩, hfirst, hlast⟩
    rw [trim_append_blank hback, trim_blank_append hfront]
    have hstart : trimStart t = t := by
      cases t with
      | nil => rfl
      | cons c rest => exact List.dropWhile_cons_of_neg (by simp [hfirst c rfl])
    rw [trim, hstart, trimEnd]
    cases hrev : t.reverse with
    | nil => rw [List.reverse_eq_nil_iff.mp hrev]; rfl
    | cons c rest =>
      have hc : t.getLast? = some c := by rw [List.getLast?_eq_head?_reverse, hrev]; rfl
      rw [List.dropWhile_cons_of_neg (by simp [hlast c hc]), ← hrev, List.reverse_reverse]

namespace Decimal

/-! ## Numerals -/

/-- One or more ASCII digits. -/
def IsDigits (ds : List Char) : Prop :=
  ds ≠ [] ∧ ∀ c ∈ ds, c.isDigit = true

/-- What digits stand for in base ten, the last of them counting once. -/
def valueOf (ds : List Char) : Nat :=
  Nat.ofDigits 10 (ds.reverse.map fun c => c.toNat - '0'.toNat)

/-- A numeral and the number that it stands for: digits with an optional sign in front. -/
inductive Denotes : List Char → Int → Prop
  | unsigned {ds : List Char} (h : IsDigits ds) : Denotes ds (valueOf ds)
  | plus {ds : List Char} (h : IsDigits ds) : Denotes ('+' :: ds) (valueOf ds)
  | minus {ds : List Char} (h : IsDigits ds) : Denotes ('-' :: ds) (-(valueOf ds : Int))

theorem ofDigitChars_eq_valueOf (ds : List Char) : Nat.ofDigitChars 10 ds 0 = valueOf ds := by
  induction ds using List.reverseRecOn with
  | nil => rfl
  | append_singleton ds c ih =>
    -- One more digit at the end makes ten times the value and the digit.
    rw [Nat.ofDigitChars_append, ih, Nat.ofDigitChars_cons, Nat.ofDigitChars_nil, valueOf, valueOf,
      List.reverse_append, List.reverse_singleton, List.singleton_append, List.map_cons,
      Nat.ofDigits_cons, Nat.add_comm]

theorem digits?_eq_some_iff {ds : List Char} {n : Nat} :
    digits? ds = some n ↔ IsDigits ds ∧ valueOf ds = n := by
  have hdigits : (!ds.isEmpty && ds.all Char.isDigit) = true ↔ IsDigits ds := by
    simp [IsDigits]
  unfold digits?
  split_ifs with h
  · rw [Option.some.injEq, ofDigitChars_eq_valueOf]
    exact ⟨fun hn => ⟨hdigits.mp h, hn⟩, And.right⟩
  · exact ⟨nofun, fun hn => absurd (hdigits.mpr hn.1) h⟩

private theorem value_of_digits? {ds : List Char} {m : Int}
    (h : ((digits? ds).bind fun n => some (n : Int)) = some m) : IsDigits ds ∧ valueOf ds = m := by
  obtain ⟨n, hn, hm⟩ := Option.bind_eq_some_iff.mp h
  obtain ⟨hdigits, rfl⟩ := digits?_eq_some_iff.mp hn
  exact ⟨hdigits, Option.some.inj hm⟩

/-- Integers are read from numerals and from nothing else. -/
theorem integer?_eq_some_iff {cs : List Char} {n : Int} :
    integer? cs = some n ↔ Denotes cs n := by
  constructor
  · intro h
    unfold integer? at h
    split at h
    case h_1 rest =>
      obtain ⟨m, hm, rfl⟩ := Option.map_eq_some_iff.mp h
      obtain ⟨hdigits, rfl⟩ := value_of_digits? hm
      exact .minus hdigits
    case h_2 rest =>
      obtain ⟨m, hm, rfl⟩ := Option.map_eq_some_iff.mp h
      obtain ⟨hdigits, rfl⟩ := value_of_digits? hm
      exact .plus hdigits
    case h_3 =>
      obtain ⟨m, hm, rfl⟩ := Option.map_eq_some_iff.mp h
      obtain ⟨hdigits, rfl⟩ := value_of_digits? hm
      exact .unsigned hdigits
  · intro h
    cases h with
    | unsigned hdigits => exact integer?_of_digits? (digits?_eq_some_iff.mpr ⟨hdigits, rfl⟩)
    | plus hdigits => simp [integer?, digits?_eq_some_iff.mpr ⟨hdigits, rfl⟩]
    | minus hdigits => simp [integer?, digits?_eq_some_iff.mpr ⟨hdigits, rfl⟩]

theorem toInt32?_eq_some_iff {n : Int} {v : Int32} : toInt32? n = some v ↔ n = v.toInt := by
  unfold toInt32?
  split_ifs with hrange
  · have hvalue : (Int32.ofInt n).toInt = n := by
      have hmin : Int32.minValue.toInt = -2147483648 := rfl
      have hmax : Int32.maxValue.toInt = 2147483647 := rfl
      rw [hmin, hmax] at hrange
      exact Int32.toInt_ofInt_of_le (by omega) (by omega)
    rw [Option.some.injEq]
    constructor
    · rintro rfl
      exact hvalue.symm
    · rintro rfl
      exact Int32.ofInt_toInt v
  · refine ⟨nofun, ?_⟩
    rintro rfl
    exact absurd ⟨Int32.minValue_le_toInt v, Int32.toInt_le v⟩ hrange

/-- A numeral is read if there is an integer of 32 bits that it stands for. -/
theorem int32?_eq_some_iff {cs : List Char} {v : Int32} :
    int32? cs = some v ↔ Denotes cs v.toInt := by
  rw [int32?, Option.bind_eq_some_iff, ← integer?_eq_some_iff]
  constructor
  · rintro ⟨n, hn, hv⟩
    rw [hn, toInt32?_eq_some_iff.mp hv]
  · intro h
    exact ⟨v.toInt, h, toInt32?_eq_some_iff.mpr rfl⟩

end Decimal

end Text

namespace IntList

open Text (isBlank trim AllBlank Trims)
open Text.Decimal (int32? ofInt Denotes)

/-! ## What a text lists -/

/-- A text and what stands in its braces: one enclosing pair comes off, and if not both of the
    braces are there, all stays as it is. -/
inductive Unbraced : List Char → List Char → Prop
  | braced (inner : List Char) : Unbraced ('{' :: inner ++ ['}']) inner
  | bare {cs : List Char} (h : ∀ inner, cs ≠ '{' :: inner ++ ['}']) : Unbraced cs cs

/-- A text and what stands between its commas. -/
structure Separated (cs : List Char) (parts : List (List Char)) : Prop where
  ne_nil : parts ≠ []
  joined : [','].intercalate parts = cs
  apart : ∀ part ∈ parts, ',' ∉ part

/-- A part is the entry of an integer if it is a numeral of it without the blanks around it. -/
def IsEntry (part : List Char) (v : Int32) : Prop :=
  ∃ t, Trims part t ∧ Denotes t v.toInt

/-- The integers whose entries stand among the parts, in their order. All other parts are
    skipped. -/
inductive Entered : List (List Char) → List Int32 → Prop
  | nil : Entered [] []
  | entry {part : List Char} {parts : List (List Char)} {v : Int32} {values : List Int32}
      (h : IsEntry part v) (hrest : Entered parts values) : Entered (part :: parts) (v :: values)
  | skipped {part : List Char} {parts : List (List Char)} {values : List Int32}
      (h : ∀ v, ¬ IsEntry part v) (hrest : Entered parts values) : Entered (part :: parts) values

/-- The integers that a text lists. -/
def Lists (raw : String) (values : List Int32) : Prop :=
  ∃ t inner parts, Trims raw.toList t ∧ Unbraced t inner ∧ Separated inner parts ∧
    Entered parts values

theorem unbrace_eq_iff {cs inner : List Char} : unbrace cs = inner ↔ Unbraced cs inner := by
  have hbare : ∀ ds : List Char, (∀ inner, ds ≠ '{' :: inner ++ ['}']) → unbrace ds = ds := by
    intro ds hds
    unfold unbrace
    split
    case h_1 rest =>
      split_ifs with hlast
      · obtain ⟨front, rfl⟩ := List.getLast?_eq_some_iff.mp hlast
        exact absurd rfl (hds front)
      · rfl
    case h_2 => rfl
  constructor
  · rintro rfl
    by_cases h : ∃ inner, cs = '{' :: inner ++ ['}']
    · obtain ⟨inner, rfl⟩ := h
      have hinner : unbrace ('{' :: inner ++ ['}']) = inner := by simp [unbrace]
      rw [hinner]
      exact .braced inner
    · have hnot : ∀ inner, cs ≠ '{' :: inner ++ ['}'] := not_exists.mp h
      rw [hbare cs hnot]
      exact .bare hnot
  · rintro (_ | hnot)
    · simp [unbrace]
    · exact hbare cs hnot

/-- Nothing that stands between commas has a comma in it. -/
theorem notMem_of_mem_splitOn {cs part : List Char} (h : part ∈ cs.splitOn ',') : ',' ∉ part := by
  induction cs generalizing part with
  | nil =>
    rw [List.splitOn_nil, List.mem_singleton] at h
    rw [h]
    exact List.not_mem_nil
  | cons c rest ih =>
    rw [List.splitOn_cons_eq_if_modifyHead] at h
    split_ifs at h with hc
    · rcases List.mem_cons.mp h with rfl | h
      · exact List.not_mem_nil
      · exact ih h
    · -- The character belongs to the first of the parts that the rest has.
      obtain ⟨first, others, hparts⟩ := List.exists_cons_of_ne_nil (List.splitOn_ne_nil ',' rest)
      rw [hparts, List.modifyHead_cons] at h
      rcases List.mem_cons.mp h with rfl | h
      · have hfirst : ',' ∉ first := ih (hparts ▸ List.mem_cons_self)
        simpa [hfirst] using Ne.symm (fun heq => hc (beq_iff_eq.mpr heq))
      · exact ih (hparts ▸ List.mem_cons_of_mem first h)

theorem splitOn_eq_iff {cs : List Char} {parts : List (List Char)} :
    cs.splitOn ',' = parts ↔ Separated cs parts := by
  constructor
  · rintro rfl
    exact ⟨List.splitOn_ne_nil ',' cs, List.intercalate_splitOn ',',
      fun _ => notMem_of_mem_splitOn⟩
  · rintro ⟨hne, rfl, hapart⟩
    exact List.splitOn_intercalate ',' hapart hne

theorem isEntry_iff {part : List Char} {v : Int32} :
    IsEntry part v ↔ int32? (trim part) = some v := by
  rw [Text.Decimal.int32?_eq_some_iff]
  constructor
  · rintro ⟨t, htrims, hdenotes⟩
    rw [Text.trim_eq_iff.mpr htrims]
    exact hdenotes
  · intro h
    exact ⟨trim part, Text.trims_trim part, h⟩

theorem entered_iff {parts : List (List Char)} {values : List Int32} :
    (parts.filterMap fun part => int32? (trim part)) = values ↔ Entered parts values := by
  constructor
  · rintro rfl
    induction parts with
    | nil => exact .nil
    | cons part parts ih =>
      cases hv : int32? (trim part) with
      | some v =>
        rw [List.filterMap_cons, hv]
        exact .entry (isEntry_iff.mpr hv) ih
      | none =>
        rw [List.filterMap_cons, hv]
        refine .skipped (fun v hentry => ?_) ih
        rw [isEntry_iff, hv] at hentry
        exact nomatch hentry
  · intro h
    induction h with
    | nil => rfl
    | entry h _ ih => rw [List.filterMap_cons, isEntry_iff.mp h, ih]
    | @skipped part _ _ h _ ih =>
      have hnone : int32? (trim part) = none :=
        Option.eq_none_iff_forall_ne_some.mpr fun v hv => h v (isEntry_iff.mpr hv)
      rw [List.filterMap_cons, hnone, ih]

/-- A text is read as the integers that it lists. -/
theorem read_eq_iff {raw : String} {values : List Int32} :
    read raw = values ↔ Lists raw values := by
  constructor
  · intro h
    exact ⟨trim raw.toList, unbrace (trim raw.toList), (unbrace (trim raw.toList)).splitOn ',',
      Text.trims_trim _, unbrace_eq_iff.mp rfl, splitOn_eq_iff.mp rfl, entered_iff.mp h⟩
  · rintro ⟨t, inner, parts, htrims, hunbraced, hseparated, hentered⟩
    rw [read, Text.trim_eq_iff.mpr htrims, unbrace_eq_iff.mpr hunbraced, entries,
      splitOn_eq_iff.mpr hseparated, entered_iff.mpr hentered]

/-! ## Blanks that do not count -/

theorem entries_append_comma (cs ds : List Char) :
    entries (cs ++ ',' :: ds) = entries cs ++ entries ds := by
  rw [entries, List.splitOn_append_cons_self, List.filterMap_append]
  rfl

/-- A text without commas has one entry at most. -/
theorem entries_of_notMem {cs : List Char} (h : ',' ∉ cs) :
    entries cs = (int32? (trim cs)).toList := by
  rw [entries, List.splitOn_eq_singleton h]
  cases hv : int32? (trim cs) <;> simp [hv]

private theorem comma_notMem_of_allBlank {cs : List Char} (h : AllBlank cs) : ',' ∉ cs :=
  h.notMem (by decide)

theorem entries_blank_append {front : List Char} (h : AllBlank front) (cs : List Char) :
    entries (front ++ cs) = entries cs := by
  have hcomma := comma_notMem_of_allBlank h
  have hsingle : ∀ part, ',' ∉ part → entries (front ++ part) = entries part := by
    intro part hpart
    have hboth : ',' ∉ front ++ part := by simp [hcomma, hpart]
    rw [entries_of_notMem hboth, entries_of_notMem hpart, Text.trim_blank_append h]
  -- Only the part before the first comma is concerned.
  by_cases hcs : ',' ∈ cs
  · obtain ⟨first, rest, rfl, hfirst⟩ := List.eq_append_cons_of_mem hcs
    rw [← List.append_assoc, entries_append_comma, entries_append_comma, hsingle first hfirst]
  · exact hsingle cs hcs

theorem entries_append_blank {back : List Char} (h : AllBlank back) (cs : List Char) :
    entries (cs ++ back) = entries cs := by
  have hcomma := comma_notMem_of_allBlank h
  have hsingle : ∀ part, ',' ∉ part → entries (part ++ back) = entries part := by
    intro part hpart
    have hboth : ',' ∉ part ++ back := by simp [hcomma, hpart]
    rw [entries_of_notMem hboth, entries_of_notMem hpart, Text.trim_append_blank h]
  -- Only the part after the last comma is concerned, which is the first one from behind.
  by_cases hcs : ',' ∈ cs
  · obtain ⟨last, rest, hrev, hlast⟩ := List.eq_append_cons_of_mem (List.mem_reverse.mpr hcs)
    have hsplit : cs = rest.reverse ++ ',' :: last.reverse := by
      rw [← cs.reverse_reverse, hrev]
      simp
    have hnot : ',' ∉ last.reverse := fun hmem => hlast (List.mem_reverse.mp hmem)
    rw [hsplit, List.append_assoc, List.cons_append, entries_append_comma, entries_append_comma,
      hsingle _ hnot]
  · exact hsingle cs hcs

theorem entries_trim (cs : List Char) : entries (trim cs) = entries cs := by
  obtain ⟨front, back, hfront, hback, hcs⟩ := (Text.trims_trim cs).cut
  have hwhole := entries_append_blank hback (front ++ trim cs)
  rw [← hcs, entries_blank_append hfront] at hwhole
  exact hwhole.symm

/-- A text without an opening brace stands in no braces, and blanks around it do not count. -/
theorem read_of_notMem {raw : String} (h : '{' ∉ raw.toList) : read raw = entries raw.toList := by
  have hbare : unbrace (trim raw.toList) = trim raw.toList := by
    refine unbrace_eq_iff.mpr (.bare fun inner heq => h ?_)
    obtain ⟨front, back, -, -, hcut⟩ := (Text.trims_trim raw.toList).cut
    rw [hcut, heq]
    simp
  rw [read, hbare, entries_trim]

/-! ## Blanks and empty entries that are put in -/

/-- The parts of a list with blanks around its entries and with parts that are blank. -/
inductive Spaced : List Int32 → List (List Char) → Prop
  | nil : Spaced [] []
  | entry {v : Int32} {values : List Int32} {parts : List (List Char)} {front back : List Char}
      (hfront : AllBlank front) (hback : AllBlank back) (hrest : Spaced values parts) :
      Spaced (v :: values) ((front ++ ofInt v.toInt ++ back) :: parts)
  | empty {values : List Int32} {parts : List (List Char)} {part : List Char}
      (hblank : AllBlank part) (hrest : Spaced values parts) : Spaced values (part :: parts)

/-- A text of a list in one of its two forms, with blanks around it, around its entries and so
    inside its braces, and with empty entries. -/
inductive Spelling (values : List Int32) (text : String) : Prop
  | bare {front back : List Char} {parts : List (List Char)} (hfront : AllBlank front)
      (hback : AllBlank back) (hparts : Spaced values parts)
      (htext : text.toList = front ++ [','].intercalate parts ++ back)
  | inBraces {front back : List Char} {parts : List (List Char)} (hfront : AllBlank front)
      (hback : AllBlank back) (hparts : Spaced values parts)
      (htext : text.toList = front ++ ('{' :: [','].intercalate parts ++ ['}']) ++ back)

/-- A list that is written with no blanks. -/
theorem Spaced.of_values (values : List Int32) :
    Spaced values (values.map fun v => ofInt v.toInt) := by
  induction values with
  | nil => exact .nil
  | cons v values ih =>
    have hentry := Spaced.entry (v := v) AllBlank.nil AllBlank.nil ih
    rwa [List.nil_append, List.append_nil] at hentry

theorem Spelling.of_plain (values : List Int32) : Spelling values (plain values) := by
  refine .bare .nil .nil (.of_values values) ?_
  rw [plain, String.toList_ofList, List.nil_append, List.append_nil]
  rfl

theorem Spelling.of_braced (values : List Int32) : Spelling values (braced values) := by
  refine .inBraces .nil .nil (.of_values values) ?_
  rw [braced, String.toList_ofList, List.nil_append, List.append_nil]
  rfl

/-- No part has characters in it other than blanks and those of numerals. -/
theorem Spaced.mem_part {values : List Int32} {parts : List (List Char)} (h : Spaced values parts)
    {part : List Char} (hpart : part ∈ parts) {c : Char} (hc : c ∈ part) :
    isBlank c = true ∨ c = '-' ∨ c.isDigit = true := by
  induction h with
  | nil => exact absurd hpart List.not_mem_nil
  | entry hfront hback _ ih =>
    rcases List.mem_cons.mp hpart with rfl | hpart
    · rcases List.mem_append.mp hc with hc | hc
      · rcases List.mem_append.mp hc with hc | hc
        · exact Or.inl (hfront c hc)
        · exact Or.inr (Text.Decimal.mem_ofInt hc)
      · exact Or.inl (hback c hc)
    · exact ih hpart
  | empty hblank _ ih =>
    rcases List.mem_cons.mp hpart with rfl | hpart
    · exact Or.inl (hblank c hc)
    · exact ih hpart

/-- Between the parts there are commas only. -/
theorem mem_intercalate {parts : List (List Char)} {c : Char} (h : c ∈ [','].intercalate parts) :
    c = ',' ∨ ∃ part ∈ parts, c ∈ part := by
  induction parts with
  | nil => exact nomatch h
  | cons part parts ih =>
    by_cases hne : parts = []
    · rw [hne, List.intercalate_singleton] at h
      exact Or.inr ⟨part, List.mem_cons_self, h⟩
    · rw [List.intercalate_cons_of_ne_nil hne, List.mem_append, List.mem_append] at h
      rcases h with (hpart | hcomma) | hrest
      · exact Or.inr ⟨part, List.mem_cons_self, hpart⟩
      · exact Or.inl (List.mem_singleton.mp hcomma)
      · rcases ih hrest with hcomma | ⟨other, hother, hc⟩
        · exact Or.inl hcomma
        · exact Or.inr ⟨other, List.mem_cons_of_mem part hother, hc⟩

/-- Printed integers are read, and blank parts are not. -/
theorem Spaced.filterMap_eq {values : List Int32} {parts : List (List Char)}
    (h : Spaced values parts) : (parts.filterMap fun part => int32? (trim part)) = values := by
  induction h with
  | nil => rfl
  | @entry v values parts front back hfront hback _ ih =>
    have hread : int32? (trim (front ++ ofInt v.toInt ++ back)) = some v := by
      have hself : trim (ofInt v.toInt) = ofInt v.toInt :=
        Text.trim_eq_self fun c hc => isBlank_eq_false (Or.inr (Text.Decimal.mem_ofInt hc))
      rw [Text.trim_append_blank hback, Text.trim_blank_append hfront, hself,
        Text.Decimal.int32?_ofInt]
    rw [List.filterMap_cons, hread, ih]
  | @empty values parts part hblank _ ih =>
    have hnothing : trim part = [] := by
      have htrim := Text.trim_blank_append hblank []
      rwa [List.append_nil] at htrim
    have hskipped : int32? (trim part) = none := by
      rw [hnothing]
      rfl
    rw [List.filterMap_cons, hskipped, ih]

theorem Spaced.entries_eq {values : List Int32} {parts : List (List Char)}
    (h : Spaced values parts) : entries ([','].intercalate parts) = values := by
  have hapart : ∀ part ∈ parts, ',' ∉ part := by
    intro part hpart hc
    exact absurd (h.mem_part hpart hc) (by decide)
  by_cases hne : parts = []
  · -- Nothing stands between no commas, and nothing is read from it.
    have hvalues := h.filterMap_eq
    rw [hne] at hvalues ⊢
    exact hvalues
  · rw [entries, List.splitOn_intercalate ',' hapart hne, h.filterMap_eq]

/-- Every spelling of a list is read as the list. -/
theorem Spelling.read_eq {values : List Int32} {text : String} (h : Spelling values text) :
    read text = values := by
  rcases h with @⟨front, back, parts, hfront, hback, hparts, htext⟩ |
    @⟨front, back, parts, hfront, hback, hparts, htext⟩
  · -- Neither blanks nor numerals have a brace in them, so none comes off.
    have hbrace : '{' ∉ text.toList := by
      have hinner : '{' ∉ [','].intercalate parts := by
        intro hc
        rcases mem_intercalate hc with hcomma | ⟨part, hpart, hc⟩
        · exact absurd hcomma (by decide)
        · exact absurd (hparts.mem_part hpart hc) (by decide)
      simp [htext, hinner, hfront.notMem (c := '{') rfl, hback.notMem (c := '{') rfl]
    rw [read_of_notMem hbrace, htext, entries_append_blank hback, entries_blank_append hfront,
      hparts.entries_eq]
  · -- The blanks end where the braces stand.
    have htrim : trim text.toList = '{' :: [','].intercalate parts ++ ['}'] := by
      refine Text.trim_eq_iff.mpr ⟨⟨front, back, hfront, hback, htext⟩, ?_, ?_⟩
      · rintro c ⟨⟩
        rfl
      · intro c hc
        rw [List.getLast?_concat] at hc
        cases hc
        rfl
    rw [read, htrim, unbrace_eq_iff.mpr (.braced _), hparts.entries_eq]

/-- Texts without opening braces that are put together with a comma are read one after the other. -/
theorem read_append_comma {a b : String} (ha : '{' ∉ a.toList) (hb : '{' ∉ b.toList) :
    read (a ++ "," ++ b) = read a ++ read b := by
  have hboth : (a ++ "," ++ b).toList = a.toList ++ ',' :: b.toList := by simp
  have hbrace : '{' ∉ (a ++ "," ++ b).toList := by
    rw [hboth]
    simp [ha, hb]
  rw [read_of_notMem hbrace, read_of_notMem ha, read_of_notMem hb, hboth, entries_append_comma]

/-- A list of integers is read back from both of its forms, and from all its spellings with blanks
    and empty entries put in. Any text is read as the integers that it lists, in their order. And
    two texts without opening braces, with a comma between them, are read one after the other. -/
theorem read_leniently (values : List Int32) (raw a b : String) :
    (read (plain values) = values ∧ read (braced values) = values) ∧
      (Spelling values (plain values) ∧ Spelling values (braced values)) ∧
      (Spelling values raw → read raw = values) ∧
      (read raw = values ↔ Lists raw values) ∧
      ('{' ∉ a.toList → '{' ∉ b.toList → read (a ++ "," ++ b) = read a ++ read b) :=
  ⟨⟨read_plain values, read_braced values⟩, ⟨.of_plain values, .of_braced values⟩,
    Spelling.read_eq, read_eq_iff, read_append_comma⟩

/-- The least and the greatest integer between braces, with blanks and an empty entry. -/
def looseText : String :=
  "\u2003\x7b -2147483648 ,\t, 2147483647\x7d\n"

/-- They are read, and so are integers in a text without braces, of which one has a plus sign and
    stands after an entry that is no integer. -/
theorem looseText_read :
    Spelling [Int32.minValue, Int32.maxValue] looseText ∧
      read looseText = [Int32.minValue, Int32.maxValue] ∧
      read ("1,x" ++ "," ++ " +2") = read "1,x" ++ read " +2" := by
  have hspace : AllBlank " ".toList := by decide
  have htab : AllBlank "\t".toList := by decide
  have hwide : AllBlank "\u2003".toList := by decide
  have hline : AllBlank "\n".toList := by decide
  have hspelling : Spelling [Int32.minValue, Int32.maxValue] looseText :=
    .inBraces hwide hline (.entry hspace hspace (.empty htab (.entry hspace .nil .nil))) rfl
  obtain ⟨-, -, hread, -, happend⟩ :=
    read_leniently [Int32.minValue, Int32.maxValue] looseText "1,x" " +2"
  exact ⟨hspelling, hread hspelling, happend (by decide) (by decide)⟩

end IntList

end ContestPlatform
