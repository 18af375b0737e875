import ContestPlatform.Http.Message
import ContestPlatform.Text.Blank

/-!
# Content encodings

Which encoding a caller prefers. Each encoding may have a quality from 0 to 1 with at most three
decimals; those that are not known or not well-formed do not count, and zero means never.
-/

namespace ContestPlatform.Http.Encoding

/-- The thousandths that the decimals of a quality stand for. -/
def decimals? (cs : List Char) : Option Nat :=
  if cs.length ≤ 3 && cs.all Char.isDigit then
    some (Nat.ofDigitChars 10 (cs ++ List.replicate (3 - cs.length) '0') 0)
  else none

/-- The thousandths of a quality such as `q=0.5`. -/
def quality? (cs : List Char) : Option Nat :=
  match cs with
  | q :: '=' :: digit :: rest =>
    if q.toLower = 'q' ∧ (digit = '0' ∨ digit = '1') then
      let whole := if digit = '1' then 1000 else 0
      match rest with
      | [] => some whole
      | '.' :: ds => ((decimals? ds).map (whole + ·)).filter (· ≤ 1000)
      | _ => none
    else none
  | _ => none

/-- Whether an entry names gzip, and its quality; absent if it does not count. -/
def entry? (cs : List Char) : Option (Bool × Nat) :=
  let name := cs.takeWhile (· != ';')
  let word := String.ofList ((Text.trim name).map Char.toLower)
  let quality :=
    if name.length < cs.length then quality? (Text.trim (cs.drop (name.length + 1)))
    else some 1000
  if word = "gzip" ∨ word = "x-gzip" then quality.map (true, ·)
  else if word = "identity" then quality.map (false, ·)
  else none

/-- The best quality that entries give to an encoding. -/
def best (gzip : Bool) (entries : List (Bool × Nat)) : Nat :=
  (entries.filter (·.1 == gzip)).foldl (fun n e => max n e.2) 0

/-- A request whose caller prefers gzip. At equal quality gzip is preferred. -/
def prefersGzip (r : Request) : Bool :=
  let values := (r.headers.filter fun h => h.1 == "accept-encoding" && isVisible h.2).map (·.2)
  let entries := (values.flatMap fun v => v.toList.splitOn ',').filterMap entry?
  0 < best true entries && best false entries ≤ best true entries

end ContestPlatform.Http.Encoding
