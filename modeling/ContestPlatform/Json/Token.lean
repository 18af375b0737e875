import ContestPlatform.Json.Numeral
import ContestPlatform.Text.Hex

/-!
# Tokens of JSON

A text is cut into tokens by a machine that looks at one character at a time. Where the text stops
being JSON a `broken` token stands, and nothing after it; so a reader that goes through the tokens
meets a flaw exactly where it would meet it in the text.

A string with a lone surrogate is still a string to a reader that skips it, so its token says only
that it has no text.
-/

namespace ContestPlatform.Json

/-- A token of a JSON text. -/
inductive Token where
  | openBrace
  | closeBrace
  | openBracket
  | closeBracket
  | comma
  | colon
  | null
  | bool (b : Bool)
  /-- A string; `none` if it has a surrogate without its partner. -/
  | text (s : Option String)
  | number (n : Numeral)
  /-- The text is not JSON from here on. -/
  | broken
deriving DecidableEq, Inhabited

namespace Token

/-! ## The machine -/

/-- The part of a string that has been read. -/
structure Begun where
  /-- The characters read so far, last one first. -/
  done : List Char
  /-- No surrogate has been left without its partner so far. -/
  paired : Bool
  /-- A leading surrogate that was read just now. -/
  leading : Option Nat
deriving DecidableEq

/-- How far a numeral has been read. -/
inductive Phase where
  | sign
  | zero
  | whole
  | point
  | fraction
  | mark
  | markSign
  | exponent
deriving DecidableEq

/-- What the machine remembers between two characters. -/
inductive State where
  /-- Between tokens. -/
  | between
  /-- Within a word: its next letter, the letters after that, and its token. -/
  | word (next : Char) (left : List Char) (token : Token)
  /-- Within a string. -/
  | string (begun : Begun)
  /-- After a backslash. -/
  | escape (begun : Begun)
  /-- After `\u`: how many digits are left and the value of those read. -/
  | unit (begun : Begun) (left value : Nat)
  /-- Within a numeral, whose digits stand last one first. -/
  | number (phase : Phase) (n : Numeral)
  /-- After a flaw. -/
  | stopped
deriving DecidableEq

/-- A string that has just begun. -/
def Begun.empty : Begun := ⟨[], true, none⟩

/-- Add a character to a string. -/
def Begun.push (b : Begun) (c : Char) : Begun :=
  ⟨c :: b.done, b.paired && b.leading.isNone, none⟩

/-- Add a UTF-16 unit to a string. A leading surrogate waits for its partner. -/
def Begun.pushUnit (b : Begun) (u : Nat) : Begun :=
  if 0xD800 ≤ u ∧ u ≤ 0xDBFF then ⟨b.done, b.paired && b.leading.isNone, some u⟩
  else if 0xDC00 ≤ u ∧ u ≤ 0xDFFF then
    match b.leading with
    | some l => ⟨Char.ofNat (0x10000 + (l - 0xD800) * 0x400 + (u - 0xDC00)) :: b.done, b.paired, none⟩
    | none => ⟨b.done, false, none⟩
  else b.push (Char.ofNat u)

/-- The token of a finished string. -/
def Begun.token (b : Begun) : Token :=
  .text (if b.paired && b.leading.isNone then some (String.ofList b.done.reverse) else none)

/-- The character that a letter after a backslash stands for. -/
def escaped? (c : Char) : Option Char :=
  match c with
  | '"' => some '"'
  | '\\' => some '\\'
  | '/' => some '/'
  | 'b' => some '\x08'
  | 'f' => some '\x0c'
  | 'n' => some '\n'
  | 'r' => some '\r'
  | 't' => some '\t'
  | _ => none

/-- The blanks of JSON. -/
def isBlank (c : Char) : Bool :=
  c == ' ' || c == '\n' || c == '\t' || c == '\r'

/-- Read a character between tokens. -/
def start (c : Char) : List Token × State :=
  if isBlank c then ([], .between)
  else match c with
    | '{' => ([.openBrace], .between)
    | '}' => ([.closeBrace], .between)
    | '[' => ([.openBracket], .between)
    | ']' => ([.closeBracket], .between)
    | ',' => ([.comma], .between)
    | ':' => ([.colon], .between)
    | '"' => ([], .string .empty)
    | 'n' => ([], .word 'u' ['l', 'l'] .null)
    | 't' => ([], .word 'r' ['u', 'e'] (.bool true))
    | 'f' => ([], .word 'a' ['l', 's', 'e'] (.bool false))
    | '-' => ([], .number .sign ⟨true, [], [], none⟩)
    | '0' => ([], .number .zero ⟨false, ['0'], [], none⟩)
    | _ => if c.isDigit then ([], .number .whole ⟨false, [c], [], none⟩) else ([.broken], .stopped)

/-- The token of a numeral whose digits stand last one first. -/
def ofNumeral (n : Numeral) : Token :=
  .number ⟨n.negative, n.whole.reverse, n.fraction.reverse,
    n.exponent.map fun e => (e.1, e.2.reverse)⟩

/-- A flaw. -/
def flaw : List Token × State :=
  ([.broken], .stopped)

/-- End a numeral before a character. -/
def endNumeral (n : Numeral) (c : Char) : List Token × State :=
  let (out, s) := start c
  (ofNumeral n :: out, s)

/-- Go on from the digits before the point, or from those after it. -/
def afterDigits (n : Numeral) (point : Bool) (c : Char) : List Token × State :=
  if point && c == '.' then ([], .number .point n)
  else if c == 'e' || c == 'E' then ([], .number .mark { n with exponent := some (false, []) })
  else endNumeral n c

/-- Add a digit to the exponent. -/
def pushExponent (n : Numeral) (c : Char) : Numeral :=
  { n with exponent := n.exponent.map fun e => (e.1, c :: e.2) }

/-- Read a character within a numeral. -/
def stepNumber (phase : Phase) (n : Numeral) (c : Char) : List Token × State :=
  match phase with
  | .sign =>
    if c = '0' then ([], .number .zero { n with whole := ['0'] })
    else if c.isDigit then ([], .number .whole { n with whole := [c] })
    else flaw
  | .zero => if c.isDigit then flaw else afterDigits n true c
  | .whole =>
    if c.isDigit then ([], .number .whole { n with whole := c :: n.whole })
    else afterDigits n true c
  | .point =>
    if c.isDigit then ([], .number .fraction { n with fraction := [c] }) else flaw
  | .fraction =>
    if c.isDigit then ([], .number .fraction { n with fraction := c :: n.fraction })
    else afterDigits n false c
  | .mark =>
    if c = '+' then ([], .number .markSign n)
    else if c = '-' then ([], .number .markSign { n with exponent := some (true, []) })
    else if c.isDigit then ([], .number .exponent (pushExponent n c))
    else flaw
  | .markSign => if c.isDigit then ([], .number .exponent (pushExponent n c)) else flaw
  | .exponent =>
    if c.isDigit then ([], .number .exponent (pushExponent n c)) else endNumeral n c

/-- Read one character: the tokens that it ends, and what to remember. -/
def step (s : State) (c : Char) : List Token × State :=
  match s with
  | .between => start c
  | .word next left token =>
    if c = next then
      match left with
      | [] => ([token], .between)
      | l :: left => ([], .word l left token)
    else flaw
  | .string b =>
    if c = '"' then ([b.token], .between)
    else if c = '\\' then ([], .escape b)
    else if c.toNat < 0x20 then flaw
    else ([], .string (b.push c))
  | .escape b =>
    if c = 'u' then ([], .unit b 4 0)
    else match escaped? c with
      | some d => ([], .string (b.push d))
      | none => flaw
  | .unit b left value =>
    match Text.Hex.digit? c with
    | none => flaw
    | some d =>
      let value := 16 * value + d
      if left ≤ 1 then ([], .string (b.pushUnit value)) else ([], .unit b (left - 1) value)
  | .number phase n => stepNumber phase n c
  | .stopped => ([], .stopped)

/-- The tokens that the end of the text ends. -/
def finish : State → List Token
  | .between => []
  | .number .zero n | .number .whole n | .number .fraction n | .number .exponent n => [ofNumeral n]
  | .stopped => []
  | _ => [.broken]

/-- The tokens that a text is cut into from a state, last one first, and the state at its end. -/
def run (out : List Token) (s : State) (cs : List Char) : List Token × State :=
  cs.foldl (fun acc c =>
    let (new, s) := step acc.2 c
    (new.reverse ++ acc.1, s)) (out, s)

/-- The tokens of a text. -/
def scan (cs : List Char) : List Token :=
  let (out, s) := run [] .between cs
  out.reverse ++ finish s

end Token

end ContestPlatform.Json
