import ContestPlatform.Proofs.DocumentText
import ContestPlatform.Proofs.IntListText
import Mathlib.Tactic.IntervalCases

/-!
# The tokens of printed values

A printed JSON value is cut into the tokens that its parts stand for: a string is one token whatever
is escaped in it, a numeral is one token that keeps every digit, and lists and objects have the
tokens of what is in them between their brackets, with commas. A numeral does not say where it ends,
so what stands after a value has to begin with a comma or a closing bracket.
-/

namespace ContestPlatform

/-- Only zero has a zero for its first digit. -/
theorem Text.Decimal.ofNat_of_pos {n : Nat} (h : 0 < n) :
    ∃ k ds, 0 < k ∧ k < 10 ∧ Text.Decimal.ofNat n = Nat.digitChar k :: ds := by
  induction n using Nat.strong_induction_on with
  | h n ih =>
    by_cases hn : n < 10
    · exact ⟨n, [], h, hn, Nat.toDigits_of_lt_base hn⟩
    · -- A longer numeral begins as the one without its last digit.
      obtain ⟨k, ds, hk, hk', hds⟩ := ih (n / 10) (by omega) (by omega)
      refine ⟨k, ds ++ [Nat.digitChar (n % 10)], hk, hk', ?_⟩
      have hlast := Nat.toDigits_of_base_le (b := 10) (n := n) (by decide) (by omega)
      rw [Text.Decimal.ofNat, hlast, ← Text.Decimal.ofNat, hds, List.cons_append]

namespace Json

/-! ## Tokens -/

/-- Groups of tokens with commas between them. -/
def Token.commas : List (List Token) → List Token
  | [] => []
  | first :: rest => first ++ rest.flatMap (.comma :: ·)

mutual

/-- The tokens of a value. -/
def tokens : Json → List Token
  | .null => [.null]
  | .bool b => [.bool b]
  | .number n => [.number n]
  | .text s => [.text (some s)]
  | .list items => .openBracket :: Token.commas (itemTokens items) ++ [.closeBracket]
  | .object members => .openBrace :: Token.commas (memberTokens members) ++ [.closeBrace]

/-- The tokens of each item of a list. -/
def itemTokens : List Json → List (List Token)
  | [] => []
  | j :: rest => tokens j :: itemTokens rest

/-- The tokens of each member of an object. -/
def memberTokens : List (String × Json) → List (List Token)
  | [] => []
  | (name, j) :: rest => (.text (some name) :: .colon :: tokens j) :: memberTokens rest

end

theorem renderItems_eq (items : List Json) : renderItems items = items.map render := by
  induction items with
  | nil => rfl
  | cons j rest ih => rw [renderItems, ih, List.map_cons]

theorem itemTokens_eq (items : List Json) : itemTokens items = items.map tokens := by
  induction items with
  | nil => rfl
  | cons j rest ih => rw [itemTokens, ih, List.map_cons]

/-- A printed member: its name, a colon and its value. -/
def renderMember (m : String × Json) : List Char :=
  quote m.1 ++ ':' :: m.2.render

/-- The tokens of a member: its name, a colon and those of its value. -/
def tokensOfMember (m : String × Json) : List Token :=
  .text (some m.1) :: .colon :: m.2.tokens

theorem renderMembers_eq (members : List (String × Json)) :
    renderMembers members = members.map renderMember := by
  induction members with
  | nil => rfl
  | cons m rest ih =>
    rw [renderMembers, ih, List.map_cons]
    rfl

theorem memberTokens_eq (members : List (String × Json)) :
    memberTokens members = members.map tokensOfMember := by
  induction members with
  | nil => rfl
  | cons m rest ih =>
    rw [memberTokens, ih, List.map_cons]
    rfl

/-! ## Texts that are cut into tokens -/

namespace Token

/-- A character that may stand after a value: a comma, or a bracket that closes. -/
def IsDelimiter (c : Char) : Prop :=
  c = ',' ∨ c = ']' ∨ c = '}'

/-- A text is cut into tokens if a delimiter stands after it. -/
def CutBefore (cs : List Char) (ts : List Token) : Prop :=
  ∀ out c rest, IsDelimiter c →
    run out .between (cs ++ c :: rest) = run (ts.reverse ++ out) .between (c :: rest)

/-- A text is cut into tokens, whatever stands after it. -/
def Cut (cs : List Char) (ts : List Token) : Prop :=
  ∀ out, run out .between cs = (ts.reverse ++ out, .between)

theorem Cut.before {cs : List Char} {ts : List Token} (h : Cut cs ts) : CutBefore cs ts := by
  intro out c rest _
  rw [run_append, h out]

theorem Cut.append {cs ds : List Char} {ts us : List Token} (h : Cut cs ts) (h' : Cut ds us) :
    Cut (cs ++ ds) (ts ++ us) := by
  intro out
  rw [run_append, h out, h' _, List.reverse_append, List.append_assoc]

theorem Cut.append_before {cs ds : List Char} {ts us : List Token} (h : Cut cs ts)
    (h' : CutBefore ds us) : CutBefore (cs ++ ds) (ts ++ us) := by
  intro out c rest hc
  rw [List.append_assoc, run_append, h out, h' _ c rest hc, List.reverse_append, List.append_assoc]

/-- A text before a delimiter is cut with the delimiter. -/
theorem CutBefore.close {cs : List Char} {ts : List Token} {c : Char} {t : Token}
    (h : CutBefore cs ts) (hc : IsDelimiter c) (ht : Cut [c] [t]) :
    Cut (cs ++ [c]) (ts ++ [t]) := by
  intro out
  rw [h out c [] hc, ht _, List.reverse_append, List.append_assoc]

/-- Texts with commas between them are cut one after another. -/
theorem cutBefore_commas {α : Type} {render : α → List Char} {tokens : α → List Token}
    {items : List α} (h : ∀ item ∈ items, CutBefore (render item) (tokens item)) :
    CutBefore (Json.commas (items.map render)) (commas (items.map tokens)) := by
  induction items with
  | nil => exact fun out c rest _ => rfl
  | cons item rest ih =>
    have hitem := h item List.mem_cons_self
    have hrest := ih fun i hi => h i (List.mem_cons_of_mem item hi)
    cases rest with
    | nil => simpa [Json.commas, commas] using hitem
    | cons next more =>
      intro out c later hc
      have hcomma : ∀ out cs, run out .between (',' :: cs) = run (.comma :: out) .between cs :=
        fun _ _ => rfl
      simp only [List.map_cons, Json.commas, List.append_assoc, List.cons_append]
      rw [hitem out ',' _ (.inl rfl), hcomma]
      simp only [List.map_cons] at hrest
      rw [hrest _ c later hc]
      simp [commas]

/-! ## Numerals -/

/-- The digits after the first one are kept in their order. -/
theorem run_digits {ds : List Char} (h : ∀ d ∈ ds, d.isDigit = true) (out : List Token)
    (n : Numeral) :
    run out (.number .whole n) ds =
      (out, .number .whole { n with whole := ds.reverse ++ n.whole }) := by
  induction ds generalizing n with
  | nil => rfl
  | cons d rest ih =>
    have hstep : step (.number .whole n) d =
        ([], .number .whole { n with whole := d :: n.whole }) := by
      simp [step, stepNumber, h d List.mem_cons_self]
    have hrest := ih (fun e he => h e (List.mem_cons_of_mem d he)) { n with whole := d :: n.whole }
    rw [run, List.foldl_cons, hstep, ← run]
    simpa using hrest

/-- A delimiter ends a numeral and is read as if nothing stood before it. -/
theorem run_delimiter {c : Char} (hc : IsDelimiter c) {phase : Phase}
    (hphase : phase = .zero ∨ phase = .whole) (out : List Token) (n : Numeral) (rest : List Char) :
    run out (.number phase n) (c :: rest) = run (ofNumeral n :: out) .between (c :: rest) := by
  rcases hphase with rfl | rfl
  · rcases hc with rfl | rfl | rfl <;> rfl
  · rcases hc with rfl | rfl | rfl <;> rfl

/-- A state in which a numeral may begin, with its sign if it has one. -/
inductive AtNumeral : Bool → State → Prop where
  | unsigned : AtNumeral false .between
  | signed : AtNumeral true (.number .sign ⟨true, [], [], none⟩)

/-- The digits of a natural number are read as one numeral, which a delimiter ends. -/
theorem run_ofNat {negative : Bool} {s : State} (hs : AtNumeral negative s) (out : List Token)
    (n : Nat) {c : Char} (hc : IsDelimiter c) (rest : List Char) :
    run out s (Text.Decimal.ofNat n ++ c :: rest) =
      run (.number ⟨negative, Text.Decimal.ofNat n, [], none⟩ :: out) .between (c :: rest) := by
  rcases Nat.eq_zero_or_pos n with rfl | hn
  · have hzero : run out s ['0'] = (out, .number .zero ⟨negative, ['0'], [], none⟩) := by
      cases hs <;> rfl
    have hend := run_delimiter hc (.inl rfl) out ⟨negative, ['0'], [], none⟩ rest
    rw [run_append, Text.Decimal.ofNat, Nat.toDigits_zero, hzero, hend]
    rfl
  · obtain ⟨k, ds, hk, hk', hds⟩ := Text.Decimal.ofNat_of_pos hn
    have hfirst : run out s [Nat.digitChar k] =
        (out, .number .whole ⟨negative, [Nat.digitChar k], [], none⟩) := by
      cases hs <;> interval_cases k <;> rfl
    have hdigit : ∀ d ∈ ds, d.isDigit = true := by
      intro d hd
      have hmem : d ∈ Text.Decimal.ofNat n := hds ▸ List.mem_cons_of_mem _ hd
      exact Nat.isDigit_of_mem_toDigits (by decide) (by decide) hmem
    have hend := run_delimiter hc (.inr rfl) out
      ⟨negative, ds.reverse ++ [Nat.digitChar k], [], none⟩ rest
    have hsplit : Nat.digitChar k :: ds ++ c :: rest = [Nat.digitChar k] ++ (ds ++ c :: rest) := rfl
    rw [hds, hsplit, run_append, hfirst, run_append, run_digits hdigit, hend]
    simp [ofNumeral]

end Token

open Token (Cut CutBefore IsDelimiter)

/-! ## Values -/

/-- The printed value is cut into its tokens if a delimiter stands after it. -/
def Scans (j : Json) : Prop :=
  CutBefore j.render j.tokens

theorem cut_quote (s : String) : Cut (quote s) [.text (some s)] :=
  fun out => Token.run_quote out s

theorem scans_text (s : String) : (Json.text s).Scans :=
  (cut_quote s).before

theorem scans_null : Json.null.Scans :=
  Cut.before fun _ => rfl

theorem scans_bool (b : Bool) : (Json.bool b).Scans := by
  cases b <;> exact Cut.before fun _ => rfl

theorem scans_int (n : Int) : (Json.int n).Scans := by
  intro out c rest hc
  rw [int, tokens, render, Numeral.render, Numeral.ofInt]
  by_cases hn : n < 0
  · have hsign : ∀ cs, Token.run out .between ('-' :: cs) =
        Token.run out (.number .sign ⟨true, [], [], none⟩) cs := fun _ => rfl
    simp [hn, hsign, Token.run_ofNat .signed out n.natAbs hc rest]
  · simp [hn, Token.run_ofNat .unsigned out n.natAbs hc rest]

theorem scans_list {items : List Json} (h : ∀ j ∈ items, j.Scans) : (Json.list items).Scans := by
  have hopen : Cut ['['] [.openBracket] := fun _ => rfl
  have hclose : Cut [']'] [.closeBracket] := fun _ => rfl
  have hitems := (Token.cutBefore_commas h).close (.inr (.inl rfl)) hclose
  refine Cut.before ?_
  rw [tokens, render, renderItems_eq, itemTokens_eq]
  exact hopen.append hitems

/-- An object ends with its bracket, so nothing has to stand after it. -/
theorem cut_object {members : List (String × Json)} (h : ∀ m ∈ members, m.2.Scans) :
    Cut (Json.object members).render (Json.object members).tokens := by
  have hmember : ∀ m ∈ members, CutBefore (renderMember m) (tokensOfMember m) := by
    intro m hm
    have hcolon : Cut [':'] [.colon] := fun _ => rfl
    exact (cut_quote m.1).append_before (hcolon.append_before (h m hm))
  have hopen : Cut ['{'] [.openBrace] := fun _ => rfl
  have hclose : Cut ['}'] [.closeBrace] := fun _ => rfl
  have hmembers := (Token.cutBefore_commas hmember).close (.inr (.inr rfl)) hclose
  rw [tokens, render, renderMembers_eq, memberTokens_eq]
  exact hopen.append hmembers

end Json

end ContestPlatform
