import ContestPlatform.Json.Value

/-!
# Requests and responses

The messages of HTTP as far as the platform reads or writes them. A message that cannot be sent has
no value here.
-/

namespace ContestPlatform.Http

/-- A character of a method or of the name of a header. -/
def isTokenChar (c : Char) : Bool :=
  c.isAlphanum || "!#$%&'*+-.^_|~".toList.contains c || c.toNat == 0x60

/-- A nonempty run of token characters. -/
def isToken (s : String) : Bool :=
  !s.isEmpty && s.toList.all isTokenChar

/-- A text that may be the value of a header. -/
def isHeaderValue (s : String) : Bool :=
  s.toList.all fun c => (0x20 ≤ c.toNat && c.toNat != 0x7F) || c == '\t'

/-- A value of a header whose characters are all visible ASCII, blanks and tabs. -/
def isVisible (s : String) : Bool :=
  s.toList.all fun c => (0x20 ≤ c.toNat && c.toNat < 0x7F) || c == '\t'

/-- The address of a request: the path and the query, both as they were sent. -/
structure Address where
  path : String
  query : Option String
deriving DecidableEq, Inhabited

/-- A request. -/
structure Request where
  method : String
  address : Address
  /-- The headers in their order, with names in lower case. -/
  headers : List (String × String)
  body : String
deriving DecidableEq, Inhabited

namespace Request

/-- The first value of a header. -/
def header? (r : Request) (name : String) : Option String :=
  r.headers.lookup name

/-- The first value of a header, if it is visible ASCII. -/
def visibleHeader? (r : Request) (name : String) : Option String :=
  (r.header? name).filter isVisible

end Request

/-- The body of a response. -/
inductive Body where
  | empty
  | json (value : Json)
  /-- A text that goes on with details of what was wrong, which are not kept. -/
  | text (head : String)

/-- The media type of a body. -/
def Body.mediaType? : Body → Option String
  | .empty => none
  | .json _ => some "application/json"
  | .text _ => some "text/plain; charset=utf-8"

/-- A response. -/
structure Response where
  status : Nat
  /-- The media type of the body that belongs to the response, also when it is left out. -/
  mediaType : Option String
  body : Body
  /-- The body is compressed. -/
  compressed : Bool
  /-- The methods that the path allows, if they are told. -/
  allow : Option String
  /-- Pages of any origin may use the response. -/
  shared : Bool

namespace Response

/-- A response with a body. -/
def of (status : Nat) (body : Body) : Response :=
  ⟨status, body.mediaType?, body, false, none, false⟩

/-- A response with a JSON body. -/
def json (status : Nat) (value : Json) : Response :=
  of status (.json value)

/-- A response without a body. -/
def empty (status : Nat) : Response :=
  of status .empty

end Response

/-- The least number of bytes of a body that is worth compressing. -/
def leastCompressed : Nat := 32

/-- A body that is worth compressing. A text is, because of its details. -/
def Body.isLong : Body → Bool
  | .empty => false
  | .json value => leastCompressed ≤ value.print.utf8ByteSize
  | .text _ => true

end ContestPlatform.Http
