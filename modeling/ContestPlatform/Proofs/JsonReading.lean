import ContestPlatform.Json.Reader
import ContestPlatform.Json.Writer
import ContestPlatform.Proofs.JsonTokens

/-!
# Values that are read back

Writer and reader are separate programs: one prints characters, the other goes through tokens, and a
record is read name by name in any order. Here it is shown that a reader that meets a written value
gives the value and leaves what stands after it. For a record that is a run through its members:
each of them fills the place of one field or is skipped, and at the end every place is filled.
-/

namespace ContestPlatform

/-! ## Integers -/

namespace Numeral

theorem le_ofDigitChars (ds : List Char) (value : Nat) : value ≤ Nat.ofDigitChars 10 ds value := by
  induction ds generalizing value with
  | nil => exact Nat.le_refl value
  | cons d rest ih =>
    rw [Nat.ofDigitChars_cons]
    have hnext := ih (10 * value + (d.toNat - '0'.toNat))
    omega

/-- Digits of a value of at most 64 bits are all kept. -/
theorem keep_of_lt {ds : List Char} {value : Nat}
    (h : Nat.ofDigitChars 10 ds value < 1 <<< keptBits) :
    keep value ds = (Nat.ofDigitChars 10 ds value, []) := by
  induction ds generalizing value with
  | nil => rfl
  | cons d rest ih =>
    rw [Nat.ofDigitChars_cons] at h ⊢
    -- The value only grows with the digits that follow, so it fits now if it fits at the end.
    have hnext := le_ofDigitChars rest (10 * value + (d.toNat - '0'.toNat))
    have hfits : ¬ 1 <<< keptBits ≤ 10 * value + (d.toNat - 48) := Nat.not_le.mpr (hnext.trans_lt h)
    rw [keep, if_neg hfits]
    exact ih h

@[simp] theorem ofDigitChars_ofNat (n : Nat) : Nat.ofDigitChars 10 (Text.Decimal.ofNat n) 0 = n :=
  Nat.ofDigitChars_toDigits (by decide) (by decide)

/-- An integer that a double holds exactly is not too large. -/
theorem overflows_ofInt {n : Int} (h : n.natAbs < 1 <<< 53) : (ofInt n).overflows = false := by
  have hkept : n.natAbs < 1 <<< keptBits := h.trans (by decide)
  have hkeep : keep 0 (Text.Decimal.ofNat n.natAbs) = (_, []) := keep_of_lt (by simpa using hkept)
  have hdouble : toDouble n.natAbs = n.natAbs := if_pos h
  have hone : toDouble 1 = 1 := by decide
  have hbeyond : n.natAbs < beyondDouble := h.trans (by decide)
  simp [overflows, scaled, ofInt, hkeep, keep, hdouble, hone, hbeyond]

theorem int?_ofInt (n : Int) : (ofInt n).int? = some n := by
  simp only [int?, ofInt, List.isEmpty_nil, Option.isNone_none, Bool.and_self, if_true,
    ofDigitChars_ofNat]
  by_cases hneg : n < 0
  · have hne : n.natAbs ≠ 0 := by omega
    have habs : -(n.natAbs : Int) = n := by omega
    rw [if_pos (decide_eq_true hneg), if_neg hne, habs]
  · have habs : (n.natAbs : Int) = n := by omega
    rw [if_neg (by simpa using hneg), habs]

end Numeral

namespace Json

theorem ofNumeral_ofInt (v : Int32) : Reader.ofNumeral (Numeral.ofInt v.toInt) = .ok v := by
  have hrange : Int32.minValue.toInt ≤ v.toInt ∧ v.toInt ≤ Int32.maxValue.toInt :=
    ⟨Int32.minValue_le_toInt v, Int32.toInt_le v⟩
  -- Integers of 32 bits are far below those that a double rounds.
  have hsmall : v.toInt.natAbs < 1 <<< 53 := by
    have hmin : Int32.minValue.toInt = -2147483648 := rfl
    have hmax : Int32.maxValue.toInt = 2147483647 := rfl
    have hbits : 1 <<< 53 = 9007199254740992 := rfl
    omega
  rw [Reader.ofNumeral, Numeral.overflows_ofInt hsmall, Numeral.int?_ofInt, Option.bind_some,
    Text.Decimal.toInt32?, if_pos hrange, Int32.ofInt_toInt]
  rfl

/-! ## Single values -/

/-- The value is cut into tokens, and a reader that meets them gives `a`. -/
structure Carries {α : Type} (read : Reader α) (j : Json) (a : α) : Prop where
  scans : j.Scans
  reads : ∀ rest, read (j.tokens ++ rest) = .ok (a, rest)

section Carries

variable {α β : Type} {read : Reader α} {j : Json} {a : α}

theorem Carries.map (h : Carries read j a) (f : α → β) : Carries (read.map f) j (f a) where
  scans := h.scans
  reads rest := by rw [Reader.map, h.reads rest]; rfl

theorem Carries.filterMap (h : Carries read j a) {f : α → Option β} {b : β} (hf : f a = some b) :
    Carries (read.filterMap f) j b where
  scans := h.scans
  reads rest := by
    simp only [Reader.filterMap, h.reads rest, bind, Except.bind, hf]
    rfl

theorem carries_text (s : String) : Carries Reader.text (.text s) s :=
  ⟨scans_text s, fun _ => rfl⟩

theorem carries_bool (b : Bool) : Carries Reader.bool (.bool b) b :=
  ⟨scans_bool b, fun _ => rfl⟩

theorem carries_int32 (v : Int32) : Carries Reader.int32 (Json.int32 v) v where
  scans := scans_int v.toInt
  reads rest := by
    show (do return (← Reader.ofNumeral (Numeral.ofInt v.toInt), rest)) = _
    rw [ofNumeral_ofInt]
    rfl

/-- The items after the first one are read up to the closing bracket. -/
theorem int32Items_of_tokens (done vs : List Int32) (rest : List Token) :
    Reader.int32Items done
        ((vs.map fun v => (Json.int32 v).tokens).flatMap (.comma :: ·) ++ .closeBracket :: rest) =
      .ok (done.reverse ++ vs, rest) := by
  induction vs generalizing done with
  | nil => simp [Reader.int32Items]
  | cons v later ih =>
    have hlater := ih (v :: done)
    simp only [Json.int32, Json.int, tokens, List.map_cons, List.flatMap_cons, List.cons_append,
      List.nil_append, Reader.int32Items, ofNumeral_ofInt] at hlater ⊢
    simpa [bind, Except.bind] using hlater

theorem carries_int32List (vs : List Int32) : Carries Reader.int32List (Json.int32List vs) vs where
  scans := by
    apply scans_list
    intro j hj
    obtain ⟨v, -, rfl⟩ := List.mem_map.mp hj
    exact scans_int v.toInt
  reads rest := by
    rw [Json.int32List, tokens, itemTokens_eq]
    cases vs with
    | nil => rfl
    | cons v later =>
      have hlater := int32Items_of_tokens [v] later rest
      simp only [Json.int32, Json.int, tokens, List.map_map, List.map_cons, Token.commas,
        List.cons_append, List.append_assoc, List.nil_append, Reader.int32List, ofNumeral_ofInt,
        Function.comp_def] at hlater ⊢
      simpa [bind, Except.bind] using hlater

/-- A word of a table is read as what the table has under it. -/
theorem carries_word {table : List (String × α)} {s : String} (h : table.lookup s = some a) :
    Carries (Reader.word table) (.text s) a where
  scans := scans_text s
  reads rest := by simp [tokens, Reader.word, h]

/-- What is written in the place of an absent value is read as its absence, and only that. -/
theorem carries_orNull {write : α → Json} (h : ∀ a, Carries read (write a) a)
    (hwrite : ∀ a, write a ≠ .null) (o : Option α) : Carries read.orNull (orNull write o) o := by
  cases o with
  | none => exact ⟨scans_null, fun _ => rfl⟩
  | some a =>
    refine ⟨(h a).scans, fun rest => ?_⟩
    have hreads := ((h a).map some).reads rest
    have hne := hwrite a
    rw [orNull]
    -- No other value begins with the token of null.
    generalize write a = j at hreads hne
    cases j with
    | null => exact absurd rfl hne
    | bool _ | number _ | text _ | list _ | object _ => exact hreads

end Carries

/-! ## Records -/

namespace Fields

variable {α : Type} {αs : List Type}

/-- The names of the fields. -/
def names : {αs : List Type} → Fields αs → List String
  | _, .nil => []
  | _, .cons field rest => field.name :: rest.names

/-- All places filled. -/
def filled : {αs : List Type} → Values αs → Slots αs
  | [], () => ()
  | _ :: _, (a, as) => (some a, filled as)

theorem close_filled (fields : Fields αs) (values : Values αs) :
    fields.close (filled values) = some values := by
  induction fields with
  | nil => rfl
  | cons field rest ih =>
    obtain ⟨a, as⟩ := values
    simp only [close, filled, ih as]
    rfl

/-- Members that carry the values of all fields, in the order of the fields. -/
inductive Written : {αs : List Type} → Fields αs → Values αs → List (String × Json) → Prop where
  | nil : Written .nil () []
  | cons {α : Type} {αs : List Type} {field : FieldReader α} {rest : Fields αs} {a : α}
      {as : Values αs} {j : Json} {members : List (String × Json)} (h : Carries field.read j a)
      (hrest : Written rest as members) :
      Written (.cons field rest) (a, as) ((field.name, j) :: members)

theorem Written.map_fst {fields : Fields αs} {values : Values αs} {members : List (String × Json)}
    (h : Written fields values members) : members.map Prod.fst = fields.names := by
  induction h with
  | nil => rfl
  | cons _ _ ih => rw [List.map_cons, ih, names]

theorem Written.scans {fields : Fields αs} {values : Values αs} {members : List (String × Json)}
    (h : Written fields values members) : ∀ m ∈ members, m.2.Scans := by
  induction h with
  | nil => simp
  | cons hfirst _ ih =>
    intro m hm
    rcases List.mem_cons.mp hm with rfl | hm
    · exact hfirst.scans
    · exact ih m hm

/-- A value that is skipped without a refusal. -/
structure Skipped (j : Json) : Prop where
  scans : j.Scans
  skips : ∀ rest, skip (j.tokens ++ rest) = .ok rest

theorem skipped_text (s : String) : Skipped (.text s) :=
  ⟨scans_text s, fun _ => rfl⟩

theorem skipped_bool (b : Bool) : Skipped (.bool b) :=
  ⟨scans_bool b, fun _ => rfl⟩

/-- What one member does to the places: it fills the free place that its name leads to, or has a
    name that leads nowhere and is skipped. -/
inductive Takes (fields : Fields αs) (slots : Slots αs) : String × Json → Slots αs → Prop where
  | known {name : String} {j : Json} {read : Reader (Slots αs)} {slots' : Slots αs}
      (hfind : fields.find name slots = .free read) (h : Carries read j slots') :
      Takes fields slots (name, j) slots'
  | unknown {name : String} {j : Json} (hfind : fields.find name slots = .unknown)
      (h : Skipped j) : Takes fields slots (name, j) slots

/-- What members do to the places, one after another. -/
inductive TakesAll (fields : Fields αs) : Slots αs → List (String × Json) → Slots αs → Prop where
  | nil (slots : Slots αs) : TakesAll fields slots [] slots
  | cons {slots next last : Slots αs} {m : String × Json} {members : List (String × Json)}
      (h : Takes fields slots m next) (hrest : TakesAll fields next members last) :
      TakesAll fields slots (m :: members) last

theorem TakesAll.append {fields : Fields αs} {slots next last : Slots αs}
    {members more : List (String × Json)} (h : TakesAll fields slots members next)
    (h' : TakesAll fields next more last) : TakesAll fields slots (members ++ more) last := by
  induction h with
  | nil => exact h'
  | cons hfirst _ ih => exact .cons hfirst (ih h')

/-! ### From fields to members -/

/-- The member of the first field fills its place. -/
theorem takes_first {field : FieldReader α} {rest : Fields αs} {slots : Slots αs} {j : Json} {a : α}
    (h : Carries field.read j a) :
    Takes (.cons field rest) (none, slots) (field.name, j) (some a, slots) :=
  .known (by rw [find, if_pos rfl]; rfl) (h.map fun a => (some a, slots))

/-- A member with another name than the first field leaves its place as it is. -/
theorem Takes.later {field : FieldReader α} {rest : Fields αs} {slots slots' : Slots αs}
    {m : String × Json} (h : Takes rest slots m slots') (hne : m.1 ≠ field.name)
    (slot : Option α) : Takes (.cons field rest) (slot, slots) m (slot, slots') := by
  cases h with
  | known hfind h =>
    refine .known ?_ (h.map fun slots => (slot, slots))
    simp only [find, if_neg hne, hfind]
    rfl
  | unknown hfind h =>
    refine .unknown ?_ h
    simp only [find, if_neg hne, hfind]

theorem TakesAll.later {field : FieldReader α} {rest : Fields αs} {slots slots' : Slots αs}
    {members : List (String × Json)} (h : TakesAll rest slots members slots')
    (hne : ∀ m ∈ members, m.1 ≠ field.name) (slot : Option α) :
    TakesAll (.cons field rest) (slot, slots) members (slot, slots') := by
  induction h with
  | nil => exact .nil _
  | cons hfirst _ ih =>
    have hfirst' := hfirst.later (hne _ List.mem_cons_self) slot
    exact .cons hfirst' (ih fun m hm => hne m (List.mem_cons_of_mem _ hm))

/-- Written members fill all places, if no two fields have one name. -/
theorem Written.takesAll {fields : Fields αs} {values : Values αs}
    {members : List (String × Json)} (h : Written fields values members)
    (hnames : fields.names.Nodup) : TakesAll fields fields.empty members (filled values) := by
  induction h with
  | nil => exact .nil _
  | cons hfirst hrest ih =>
    obtain ⟨hne, hnames⟩ := List.nodup_cons.mp hnames
    refine .cons (takes_first hfirst) ((ih hnames).later ?_ _)
    intro m hm heq
    rw [← hrest.map_fst, ← heq] at hne
    exact hne (List.mem_map_of_mem hm)

theorem find_eq_unknown {name : String} (fields : Fields αs) (slots : Slots αs)
    (h : name ∉ fields.names) : fields.find name slots = .unknown := by
  induction fields with
  | nil => rfl
  | cons field rest ih =>
    obtain ⟨slot, slots⟩ := slots
    obtain ⟨hne, hrest⟩ := not_or.mp (mt List.mem_cons.mpr h)
    simp only [find, if_neg hne, ih slots hrest]

/-- Members with other names than the fields leave the places as they are. -/
theorem takesAll_extra {fields : Fields αs} {extra : List (String × Json)}
    (h : ∀ m ∈ extra, m.1 ∉ fields.names ∧ Skipped m.2) (slots : Slots αs) :
    TakesAll fields slots extra slots := by
  induction extra with
  | nil => exact .nil slots
  | cons m rest ih =>
    obtain ⟨hname, hskip⟩ := h m List.mem_cons_self
    have hfirst : Takes fields slots m slots := .unknown (find_eq_unknown fields slots hname) hskip
    exact .cons hfirst (ih fun m hm => h m (List.mem_cons_of_mem _ hm))

/-! ### From members to records -/

/-- The reader of members does what the first member does, and then looks at what comes next. -/
theorem members_of_takes {fields : Fields αs} {slots next : Slots αs} {m : String × Json}
    (h : Takes fields slots m next) (bound : Nat) (ts : List Token) :
    fields.members (bound + 1) slots (tokensOfMember m ++ ts) =
      match ts with
      | .closeBrace :: rest => .ok (next, rest)
      | .comma :: rest => fields.members bound next rest
      | _ => .error .malformed := by
  cases h with
  | known hfind h =>
    simp only [Fields.members, tokensOfMember, List.cons_append, hfind, h.reads]
    rfl
  | unknown hfind h =>
    simp only [Fields.members, tokensOfMember, List.cons_append, hfind, h.skips]
    rfl

/-- The reader of members goes through them one after another, up to the closing brace. -/
theorem members_of_takesAll {fields : Fields αs} {slots last : Slots αs} {m : String × Json}
    {members : List (String × Json)} (h : TakesAll fields slots (m :: members) last) {bound : Nat}
    (hbound : members.length < bound) (rest : List Token) :
    fields.members bound slots
        (Token.commas ((m :: members).map tokensOfMember) ++ .closeBrace :: rest) =
      .ok (last, rest) := by
  -- The induction is on the members after the first one; the bound shrinks with them.
  induction members generalizing m slots bound with
  | nil =>
    obtain ⟨bound, rfl⟩ : ∃ b, bound = b + 1 := ⟨bound - 1, by omega⟩
    cases h with
    | cons hfirst hrest =>
      cases hrest
      simp only [List.map_cons, List.map_nil, Token.commas, List.flatMap_nil, List.append_nil]
      rw [members_of_takes hfirst]
  | cons next later ih =>
    obtain ⟨bound, rfl⟩ : ∃ b, bound = b + 1 := ⟨bound - 1, by omega⟩
    cases h with
    | cons hfirst hrest =>
      have hlength : later.length < bound := by simpa using hbound
      have hlater := ih hrest hlength
      simp only [Token.commas, List.map_cons, List.flatMap_cons, List.append_assoc,
        List.cons_append] at hlater ⊢
      rw [members_of_takes hfirst]
      exact hlater

theorem length_le_commas (members : List (String × Json)) :
    members.length ≤ (Token.commas (members.map tokensOfMember)).length := by
  cases members with
  | nil => exact Nat.zero_le _
  | cons m rest =>
    have hrest : rest.length ≤ ((rest.map tokensOfMember).flatMap (.comma :: ·)).length := by
      induction rest with
      | nil => exact Nat.zero_le _
      | cons next later ih =>
        simp only [List.map_cons, List.flatMap_cons, List.length_append, List.length_cons] at ih ⊢
        omega
    simp only [List.map_cons, Token.commas, List.length_append, List.length_cons, tokensOfMember]
    omega

/-- A record is read from its members, whatever other members stand after them. -/
theorem read_object {fields : Fields αs} {values : Values αs} {members extra : List (String × Json)}
    (h : Written fields values members) (hnames : fields.names.Nodup)
    (hextra : ∀ m ∈ extra, m.1 ∉ fields.names ∧ Skipped m.2) (rest : List Token) :
    fields.read ((Json.object (members ++ extra)).tokens ++ rest) = .ok (values, rest) := by
  have htakes := (h.takesAll hnames).append (takesAll_extra hextra _)
  have hclose := close_filled fields values
  rw [tokens, memberTokens_eq]
  generalize members ++ extra = all, filled values = slots at htakes hclose
  cases all with
  | nil =>
    cases htakes
    simp [Fields.read, Token.commas, hclose, bind, Except.bind, pure, Except.pure]
  | cons m later =>
    -- There are at least as many tokens as members, so the bound is not met.
    have hlength := length_le_commas (m :: later)
    have hbound : later.length <
        (Token.commas ((m :: later).map tokensOfMember) ++ .closeBrace :: rest).length := by
      simp only [List.length_cons, List.length_append] at hlength ⊢
      omega
    have hread := members_of_takesAll htakes hbound rest
    simp only [Token.commas, List.map_cons, tokensOfMember, List.cons_append, List.append_assoc,
      List.nil_append, Fields.read] at hread ⊢
    simp only [hread, hclose, bind, Except.bind, pure, Except.pure]

end Fields

/-! ## Whole texts -/

theorem scan_print {members : List (String × Json)} (h : ∀ m ∈ members, m.2.Scans) :
    Token.scan (Json.object members).print.toList = (Json.object members).tokens := by
  have hcut := cut_object h []
  simp [Token.scan, print, hcut, Token.finish]

/-- The text of a record is read back as the record, whatever other members it has. -/
theorem ofText_object {α : Type} {αs : List Type} {fields : Fields αs} {values : Values αs}
    {members extra : List (String × Json)} (h : fields.Written values members)
    (hnames : fields.names.Nodup)
    (hextra : ∀ m ∈ extra, m.1 ∉ fields.names ∧ Fields.Skipped m.2) (f : Values αs → α) :
    (fields.read.map f).ofText (Json.object (members ++ extra)).print = .ok (f values) := by
  have hscans : ∀ m ∈ members ++ extra, m.2.Scans := by
    intro m hm
    rcases List.mem_append.mp hm with hm | hm
    · exact h.scans m hm
    · exact (hextra m hm).2.scans
  have hread := Fields.read_object h hnames hextra []
  rw [List.append_nil] at hread
  rw [Reader.ofText, scan_print hscans, Reader.map, hread]
  rfl

/-- The text of a record that has no other members is read back as the record. -/
theorem ofText_record {α : Type} {αs : List Type} {fields : Fields αs} {values : Values αs}
    {members : List (String × Json)} (h : fields.Written values members)
    (hnames : fields.names.Nodup) (f : Values αs → α) :
    (fields.read.map f).ofText (Json.object members).print = .ok (f values) := by
  rw [← List.append_nil members]
  exact ofText_object h hnames (List.forall_mem_nil _) f

end Json

end ContestPlatform
