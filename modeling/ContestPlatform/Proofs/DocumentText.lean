import ContestPlatform.Problem.Json
import ContestPlatform.Proofs.UuidText

/-!
# Documents as texts

The text that is stored for the document of a problem is read back as that document, whatever the
description is: the tokens of a quoted string are one token with the string, since every escape is
undone character by character.
-/

namespace ContestPlatform

namespace Json.Token

/-! ## Quoted strings -/

/-- A text is read from left to right, so reading may pause anywhere. -/
theorem run_append (out : List Token) (s : State) (cs ds : List Char) :
    run out s (cs ++ ds) = run (run out s cs).1 (run out s cs).2 ds := by
  simp only [run, List.foldl_append]

/-- What has been read of a string without surrogates, last character first. -/
def Begun.plain (done : List Char) : Begun :=
  ⟨done, true, none⟩

theorem Begun.push_plain (done : List Char) (c : Char) :
    (Begun.plain done).push c = Begun.plain (c :: done) :=
  rfl

theorem Begun.pushUnit_plain (done : List Char) {u : Nat} (h : u < 0xD800) :
    (Begun.plain done).pushUnit u = Begun.plain (Char.ofNat u :: done) := by
  rw [pushUnit, if_neg (by omega), if_neg (by omega), push_plain]

/-- Four hexadecimal digits, two of them zero, are read as one character. -/
private theorem run_unit (out : List Token) (done : List Char) {n : Nat} (hn : n < 0x20) :
    run out (.string (.plain done))
        ['\\', 'u', '0', '0', Text.Hex.lower (n / 16), Text.Hex.lower (n % 16)] =
      (out, .string (.plain (Char.ofNat n :: done))) := by
  have hhigh := Text.Hex.digit?_lower (show n / 16 < 16 by omega)
  have hlow := Text.Hex.digit?_lower (show n % 16 < 16 by omega)
  have hzero : Text.Hex.digit? '0' = some 0 := by decide
  have hvalue : 16 * (16 * (16 * (16 * 0 + 0) + 0) + n / 16) + n % 16 = n := by omega
  simp only [run, List.foldl_cons, List.foldl_nil, step, hzero, hhigh, hlow, reduceIte,
    List.reverse_nil, List.nil_append, Nat.reduceLeDiff, Nat.reduceSub, Nat.le_refl,
    Char.reduceEq, Nat.mul_zero, Nat.zero_add, Nat.add_zero] at hvalue ⊢
  rw [hvalue, Begun.pushUnit_plain done (by omega)]

/-- An escaped character is read as the character. -/
theorem run_escape (out : List Token) (done : List Char) (c : Char) :
    run out (.string (.plain done)) (escape c) = (out, .string (.plain (c :: done))) := by
  unfold escape
  -- Seven characters have escapes of their own, and the other control characters have units.
  split_ifs with hquote hback hline hreturn htab hbell hfeed hcontrol
  · subst hquote; rfl
  · subst hback; rfl
  · subst hline; rfl
  · subst hreturn; rfl
  · subst htab; rfl
  · subst hbell; rfl
  · subst hfeed; rfl
  · rw [run_unit out done hcontrol, Char.ofNat_toNat]
  · simp only [run, List.foldl_cons, List.foldl_nil, step, if_neg hquote, if_neg hback,
      if_neg hcontrol, List.reverse_nil, List.nil_append, Begun.push_plain]

theorem run_flatMap_escape (out : List Token) (done cs : List Char) :
    run out (.string (.plain done)) (cs.flatMap escape) =
      (out, .string (.plain (cs.reverse ++ done))) := by
  induction cs generalizing done with
  | nil => rfl
  | cons c cs ih =>
    rw [List.flatMap_cons, run_append, run_escape, ih, List.reverse_cons, List.append_assoc]
    rfl

/-- A quoted string is read as one token, which holds the string. -/
theorem run_quote (out : List Token) (s : String) :
    run out .between (quote s) = (.text (some s) :: out, .between) := by
  -- A quote opens the string, the escapes are undone, and a quote closes it.
  have hopen : run out .between ['"'] = (out, .string (.plain [])) := rfl
  have hclose : run out (.string (.plain s.toList.reverse)) ['"'] =
      (.text (some s) :: out, .between) := by
    simp [run, step, Begun.plain, Begun.token]
  have hquote : quote s = ['"'] ++ (s.toList.flatMap escape ++ ['"']) := rfl
  rw [hquote, run_append, hopen, run_append, run_flatMap_escape, List.append_nil, hclose]

end Json.Token

namespace ProblemDocument

open Json (Token)

/-- The tokens of the text that is stored for a document. -/
theorem scan_print (d : ProblemDocument) :
    Token.scan d.print.toList =
      [.openBrace, .text (some "description"), .colon, .text (some d.description),
        .closeBrace] := by
  -- The text is the document of one field; its parts are read one after another.
  have hprint : d.print.toList =
      ['{'] ++ (Json.quote "description" ++ ([':'] ++ (Json.quote d.description ++ ['}']))) := by
    simp [print, Json.print, toJson, Json.render, Json.renderMembers, Json.commas]
  have hopen : Token.run [] .between ['{'] = ([.openBrace], .between) := rfl
  have hcolon : ∀ out, Token.run out .between [':'] = (.colon :: out, .between) := fun _ => rfl
  have hclose : ∀ out, Token.run out .between ['}'] = (.closeBrace :: out, .between) := fun _ => rfl
  rw [Token.scan, hprint, Token.run_append, hopen, Token.run_append, Token.run_quote,
    Token.run_append, hcolon, Token.run_append, Token.run_quote, hclose]
  rfl

/-- The text that is stored for a document is read back as the document. -/
@[simp] theorem ofText?_print (d : ProblemDocument) : ofText? d.print = some d := by
  rw [ofText?, Json.Reader.ofText, scan_print]
  rfl

end ProblemDocument

end ContestPlatform
