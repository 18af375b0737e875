import ContestPlatform.Http.Message

/-!
# Media types

Which bodies are said to be JSON: those of type `application` whose subtype is `json` or whose
suffix, the part after the last plus sign, is. Parameters have to be well-formed but do not matter.
-/

namespace ContestPlatform.Http.MediaType

/-- How far the parameters have been read. -/
inductive Phase where
  /-- Before the name of a parameter. -/
  | before
  /-- Within a name. -/
  | name
  /-- Before a value. -/
  | equals
  /-- Within a value. -/
  | value
  /-- Just after the quote that opens a value. -/
  | quote
  /-- Within a quoted value. -/
  | quoted
  /-- After a quoted value. -/
  | after

/-- A character of a quoted value. -/
def isQuotedChar (c : Char) : Bool :=
  0x20 ≤ c.toNat && c.toNat != 0x7F

/-- The text after the subtype and its semicolon is a list of parameters. -/
def isParameters : Phase → List Char → Bool
  | .before, [] | .value, [] | .equals, [] | .after, [] => true
  | .name, [] | .quote, [] | .quoted, [] => false
  | .before, c :: rest =>
    if c = ' ' then isParameters .before rest else isTokenChar c && isParameters .name rest
  | .name, c :: rest =>
    if c = '=' then isParameters .equals rest else isTokenChar c && isParameters .name rest
  | .equals, c :: rest =>
    if c = '"' then isParameters .quote rest else isTokenChar c && isParameters .value rest
  | .value, c :: rest =>
    if c = ';' then isParameters .before rest else isTokenChar c && isParameters .value rest
  | .quote, c :: rest => isQuotedChar c && isParameters .quoted rest
  | .quoted, c :: rest =>
    if c = '"' then isParameters .after rest else isQuotedChar c && isParameters .quoted rest
  | .after, c :: rest =>
    if c = ';' then isParameters .before rest else c == ' ' && isParameters .after rest

/-- A subtype that stands for JSON. A plus sign that begins it does not set off a suffix. -/
def isJsonSubtype (cs : List Char) : Bool :=
  match cs.reverse.span (· != '+') with
  | (suffix, '+' :: c :: subtype) =>
    suffix.reverse = "json".toList || (c :: subtype).reverse = "json".toList
  | _ => cs = "json".toList

/-- The value of a header that announces JSON. -/
def isJson (s : String) : Bool :=
  let cs := s.toList.map Char.toLower
  let kind := cs.takeWhile (· != '/')
  let rest := cs.drop (kind.length + 1)
  let subtype := rest.takeWhile (· != ';')
  kind = "application".toList && kind.length < cs.length &&
    subtype.all isTokenChar && isJsonSubtype subtype &&
    isParameters .before (rest.drop (subtype.length + 1))

end ContestPlatform.Http.MediaType
