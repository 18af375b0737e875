import ContestPlatform.Http.Message
import ContestPlatform.Text.Decimal

/-!
# Addresses

Reading the target of a request. It is a path with an optional query, a full address with a scheme
and a host, a host alone, or an asterisk. A number sign ends the query.
-/

namespace ContestPlatform.Http

namespace Address

/-- The greatest number of bytes of a target. -/
def longest : Nat := 65534

/-- A character that may stand in a path. -/
def isPathChar (c : Char) : Bool :=
  let n := c.toNat
  n == 0x21 || n == 0x22 || (0x24 ≤ n && n ≤ 0x3B) || n == 0x3D || (0x40 ≤ n && n ≤ 0x5F) ||
    (0x61 ≤ n && n ≤ 0x7E) || 0x7F ≤ n

/-- A character that may stand in a query. -/
def isQueryChar (c : Char) : Bool :=
  let n := c.toNat
  n == 0x21 || (0x24 ≤ n && n ≤ 0x3B) || n == 0x3D || 0x3F ≤ n

/-- The text before a number sign. -/
def beforeFragment (cs : List Char) : List Char :=
  cs.takeWhile (· != '#')

/-- Read a path and a query. A path that is missing is a single slash. -/
def pathAndQuery? (cs : List Char) : Option Address :=
  let cs := beforeFragment cs
  let path := cs.takeWhile (· != '?')
  let query := cs.drop (path.length + 1)
  if path.all isPathChar && query.all isQueryChar then
    some ⟨if path.isEmpty then "/" else String.ofList path,
      if path.length < cs.length then some (String.ofList query) else none⟩
  else none

/-- A character that may stand in the name of a host. -/
def isHostChar (c : Char) : Bool :=
  c.isAlphanum || "-._~!$&'()*+,;=".toList.contains c

/-- A host with an optional user before it and an optional port after it. -/
def isAuthority (cs : List Char) : Bool :=
  let host := (cs.splitOn '@').getLast?.getD []
  let user := cs.take (cs.length - host.length - 1)
  let name := host.takeWhile (· != ':')
  let port := host.drop (name.length + 1)
  !name.isEmpty && name.all isHostChar && port.all Char.isDigit &&
    user.all fun c => isHostChar c || c == ':' || c == '%'

/-- A character that may stand in a scheme. -/
def isSchemeChar (c : Char) : Bool :=
  c.isAlphanum || c == '+' || c == '-' || c == '.'

/-- Read a full address or a host alone. -/
def absolute? (cs : List Char) : Option Address :=
  let scheme := cs.takeWhile isSchemeChar
  match cs.drop scheme.length with
  | ':' :: '/' :: '/' :: rest =>
    let authority := rest.takeWhile fun c => c != '/' && c != '?' && c != '#'
    if !scheme.isEmpty && isAuthority authority then pathAndQuery? (rest.drop authority.length)
    else none
  | _ => if isAuthority cs then some ⟨"", none⟩ else none

/-- Read the target of a request. -/
def ofText? (s : String) : Option Address :=
  if longest < s.utf8ByteSize then none
  else match s.toList with
    | [] => none
    | ['*'] => some ⟨"*", none⟩
    | '/' :: rest => pathAndQuery? ('/' :: rest)
    | cs => absolute? cs

end Address

/-- A request, if it can be sent. -/
def Request.make? (method target : String) (headers : List (String × String)) (body : String) :
    Option Request := do
  guard (isToken method && headers.all fun h => isToken h.1 && isHeaderValue h.2)
  let address ← Address.ofText? target
  return ⟨method, address, headers.map fun h => (String.ofList (h.1.toList.map Char.toLower), h.2),
    body⟩

end ContestPlatform.Http
