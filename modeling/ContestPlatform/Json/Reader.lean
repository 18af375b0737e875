import ContestPlatform.Json.Token
import ContestPlatform.Instant.Text
import ContestPlatform.Uuid

/-!
# Typed reading of JSON

A reader takes the tokens of a text from left to right and gives a value of a known shape and the
tokens after it. The first problem that it meets decides the outcome: the text is `malformed`, or
it is JSON of another shape (`mismatch`).

A record is read from an object, whose members may stand in any order and among unknown ones, or
from a list that has the fields in their order of declaration.
-/

namespace ContestPlatform.Json

/-- Why a text was refused. -/
inductive Refusal where
  /-- The text is not JSON. -/
  | malformed
  /-- The text is JSON, but not of the shape that is wanted. -/
  | mismatch
deriving DecidableEq, Inhabited

/-- A reader of one shape. -/
abbrev Reader (α : Type) : Type :=
  List Token → Except Refusal (α × List Token)

/-! ## Single values -/

/-- The refusal of tokens that begin with a value of another kind than the one wanted. -/
def unexpected : List Token → Refusal
  | .number n :: _ => if n.overflows then .malformed else .mismatch
  | .text (some _) :: _ | .null :: _ | .bool _ :: _ | .openBrace :: _ | .openBracket :: _ => .mismatch
  | _ => .malformed

namespace Reader

/-- Apply a function to what is read. -/
def map {α β : Type} (f : α → β) (read : Reader α) : Reader β :=
  fun ts => do
    let (a, rest) ← read ts
    return (f a, rest)

/-- Read a value and refuse those that have no image. -/
def filterMap {α β : Type} (f : α → Option β) (read : Reader α) : Reader β :=
  fun ts => do
    let (a, rest) ← read ts
    match f a with
    | some b => return (b, rest)
    | none => throw .mismatch

/-- A string. -/
def text : Reader String
  | .text (some s) :: rest => .ok (s, rest)
  | ts => .error (unexpected ts)

/-- A truth value. -/
def bool : Reader Bool
  | .bool b :: rest => .ok (b, rest)
  | ts => .error (unexpected ts)

/-- The 32-bit integer that a numeral stands for. -/
def ofNumeral (n : Numeral) : Except Refusal Int32 :=
  if n.overflows then .error .malformed
  else match n.int?.bind Text.Decimal.toInt32? with
    | some i => .ok i
    | none => .error .mismatch

/-- A 32-bit integer: no fraction, no exponent, not minus zero. -/
def int32 : Reader Int32
  | .number n :: rest => do return (← ofNumeral n, rest)
  | ts => .error (unexpected ts)

/-- An identifier in one of its text forms. -/
def uuid : Reader Uuid :=
  filterMap Uuid.ofText? text

/-- An instant as text. -/
def instant : Reader Instant :=
  filterMap Instant.ofText? text

/-- A value or null. -/
def orNull {α : Type} (read : Reader α) : Reader (Option α)
  | .null :: rest => .ok (none, rest)
  | ts => map some read ts

/-- The rest of a list of integers after the items read so far, last one first. -/
def int32Items (done : List Int32) : Reader (List Int32)
  | .closeBracket :: rest => .ok (done.reverse, rest)
  | .comma :: .number n :: rest => do int32Items ((← ofNumeral n) :: done) rest
  | .comma :: ts => .error (unexpected ts)
  | _ => .error .malformed

/-- A list of 32-bit integers. -/
def int32List : Reader (List Int32)
  | .openBracket :: .closeBracket :: rest => .ok ([], rest)
  | .openBracket :: .number n :: rest => do int32Items [← ofNumeral n] rest
  | .openBracket :: ts => .error (unexpected ts)
  | ts => .error (unexpected ts)

/-- One of a table of words, as a string or as an object whose only member has the word for a name
    and null for a value. Any other kind of value counts as malformed, and so does an object that
    does not begin with a name. -/
def word {α : Type} (table : List (String × α)) : Reader α
  | .text (some s) :: rest =>
    match table.lookup s with
    | some a => .ok (a, rest)
    | none => .error .mismatch
  | .openBrace :: .text (some s) :: rest =>
    match table.lookup s with
    | none => .error .mismatch
    | some a =>
      match rest with
      | .colon :: .null :: .closeBrace :: rest => .ok (a, rest)
      | .colon :: .null :: _ => .error .malformed
      | .colon :: ts => .error (unexpected ts)
      | _ => .error .malformed
  | _ => .error .malformed

end Reader

/-! ## Values that are skipped -/

/-- What may come next within a value that is skipped. -/
inductive Skipping where
  /-- A value. -/
  | value
  /-- A value or the end of a list that has just begun. -/
  | firstItem
  /-- A name or the end of an object that has just begun. -/
  | firstName
  /-- A name. -/
  | name
  /-- The colon after a name. -/
  | colon
  /-- A comma or the end of the innermost container. -/
  | next

/-- Skip to the end of a value. `open_` tells of each open container, innermost first, whether it is
    an object. Only the grammar is checked: numerals may be too large, strings may have lone
    surrogates, and containers may nest without limit. -/
def skipFrom (open_ : List Bool) (mode : Skipping) : List Token → Except Refusal (List Token)
  | [] => .error .malformed
  | t :: ts =>
    let close (outer : List Bool) : Except Refusal (List Token) :=
      if outer.isEmpty then .ok ts else skipFrom outer .next ts
    match mode, t with
    | .colon, .colon => skipFrom open_ .value ts
    | .name, .text _ => skipFrom open_ .colon ts
    | .firstName, .text _ => skipFrom open_ .colon ts
    | .firstName, .closeBrace => close open_.tail
    | .firstItem, .closeBracket => close open_.tail
    | .next, .comma => skipFrom open_ (if open_.head? = some true then .name else .value) ts
    | .next, .closeBrace =>
      if open_.head? = some true then close open_.tail else .error .malformed
    | .next, .closeBracket =>
      if open_.head? = some false then close open_.tail else .error .malformed
    | .value, .openBrace | .firstItem, .openBrace => skipFrom (true :: open_) .firstName ts
    | .value, .openBracket | .firstItem, .openBracket => skipFrom (false :: open_) .firstItem ts
    | .value, .null | .value, .bool _ | .value, .text _ | .value, .number _
    | .firstItem, .null | .firstItem, .bool _ | .firstItem, .text _ | .firstItem, .number _ =>
      close open_
    | _, _ => .error .malformed

/-- Skip one value. -/
def skip (ts : List Token) : Except Refusal (List Token) :=
  skipFrom [] .value ts

/-! ## Records -/

/-- How a field is read, and the values that it has when it is absent from an object and when a
    list ends before it. A field without such a value has to be there. -/
structure FieldReader (α : Type) where
  /-- The name of its member. -/
  name : String
  /-- The reader of its value. -/
  read : Reader α
  /-- Its value if no member has its name. -/
  unnamed : Option α
  /-- Its value if the list ends before it. -/
  unlisted : Option α

/-- A field that has to be there. -/
def FieldReader.required {α : Type} (name : String) (read : Reader α) : FieldReader α :=
  ⟨name, read, none, none⟩

/-- A field that may be null or absent. In the list form it has to be there. -/
def FieldReader.optional {α : Type} (name : String) (read : Reader α) : FieldReader (Option α) :=
  ⟨name, read.orNull, some none, none⟩

/-- A field with a default. Null is not a way to ask for it. -/
def FieldReader.defaulted {α : Type} (name : String) (read : Reader α) (value : α) : FieldReader α :=
  ⟨name, read, some value, some value⟩

/-- The fields of a record in their order of declaration. -/
inductive Fields : List Type → Type 1 where
  | nil : Fields []
  | cons {α : Type} {αs : List Type} (field : FieldReader α) (rest : Fields αs) : Fields (α :: αs)

/-- A value for each field. -/
def Values : List Type → Type
  | [] => Unit
  | α :: αs => α × Values αs

/-- A place for the value of each field. -/
def Slots : List Type → Type
  | [] => Unit
  | α :: αs => Option α × Slots αs

namespace Fields

/-- What a name of a member leads to. -/
inductive Place (σ : Type) where
  /-- No field has the name. -/
  | unknown
  /-- The field has its value already. -/
  | taken
  /-- The field is free, and this reads its value into its place. -/
  | free (read : Reader σ)

/-- All places empty. -/
def empty : {αs : List Type} → Fields αs → Slots αs
  | _, .nil => ()
  | _, .cons _ rest => (none, rest.empty)

/-- The place that a name leads to. -/
def find (name : String) : {αs : List Type} → Fields αs → Slots αs → Place (Slots αs)
  | _, .nil, _ => .unknown
  | _, .cons field rest, (slot, slots) =>
    if name = field.name then
      match slot with
      | some _ => .taken
      | none => .free (field.read.map fun a => (some a, slots))
    else
      match rest.find name slots with
      | .unknown => .unknown
      | .taken => .taken
      | .free read => .free (read.map fun slots => (slot, slots))

/-- The values of all fields, if none is missing. -/
def close : {αs : List Type} → Fields αs → Slots αs → Option (Values αs)
  | _, .nil, _ => some ()
  | _, .cons field rest, (slot, slots) => do
    let a ← slot.or field.unnamed
    let as ← rest.close slots
    return (a, as)

/-- Read the members of an object, the first of which begins here. The number bounds how many
    there are; there are fewer members than tokens. -/
def members {αs : List Type} (fields : Fields αs) :
    Nat → Slots αs → Reader (Slots αs)
  | 0, _, _ => .error .malformed
  | bound + 1, slots, ts => do
    let (slots, rest) ←
      match ts with
      | .text (some name) :: rest =>
        match fields.find name slots, rest with
        | .taken, _ => throw .mismatch
        | .free read, .colon :: rest => read rest
        | .unknown, .colon :: rest => do pure (slots, ← skip rest)
        | _, _ => throw .malformed
      | _ => throw .malformed
    match rest with
    | .closeBrace :: rest => return (slots, rest)
    | .comma :: rest => members fields bound slots rest
    | _ => throw .malformed

/-- Read the fields from the items of a list. Before each item but the first stands a comma. -/
def items : {αs : List Type} → Fields αs → Bool → Reader (Values αs)
  | _, .nil, _, .closeBracket :: rest => .ok ((), rest)
  | _, .nil, _, _ => .error .malformed
  | _, .cons field rest, first, ts =>
    match ts with
    | .closeBracket :: _ =>
      match field.unlisted with
      | some a => (rest.items first).map (a, ·) ts
      | none => .error .mismatch
    | _ => do
      let ts ←
        if first then pure ts
        else match ts with
          | .comma :: .closeBracket :: _ => throw .malformed
          | .comma :: ts => pure ts
          | _ => throw .malformed
      let (a, ts) ← field.read ts
      (rest.items false).map (a, ·) ts

/-- Read a record. -/
def read {αs : List Type} (fields : Fields αs) : Reader (Values αs)
  | .openBrace :: ts => do
    let (slots, rest) ←
      match ts with
      | .closeBrace :: rest => pure (fields.empty, rest)
      | _ => fields.members ts.length fields.empty ts
    match fields.close slots with
    | some values => return (values, rest)
    | none => throw .mismatch
  | .openBracket :: ts => fields.items true ts
  | ts => .error (unexpected ts)

end Fields

/-! ## Whole texts -/

/-- Read a whole text as one value. -/
def Reader.ofText {α : Type} (read : Reader α) (s : String) : Except Refusal α := do
  match ← read (Token.scan s.toList) with
  | (a, []) => return a
  | _ => throw .malformed

end ContestPlatform.Json
