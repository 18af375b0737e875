import ContestPlatform.Content.Store
import ContestPlatform.Text.Percent
import ContestPlatform.Text.Utf8

/-!
# A content store in a bucket of an object service

Every call is one request to the service. A put that may only create asks the service itself to
refuse it if there is an object already, and the service answers so with status 412, or 409 when
another such put was faster.
-/

namespace ContestPlatform.Content.Bucket

/-- A request to the service. -/
structure Request where
  /-- The call that it serves. -/
  call : Call
deriving DecidableEq

/-- The reply of the service. -/
structure Reply where
  status : Nat
  body : List UInt8
deriving DecidableEq, Inhabited

namespace Request

/-- The HTTP method. -/
def method (r : Request) : String :=
  match r.call with
  | .put .. => "PUT"
  | .get _ => "GET"
  | .delete _ => "DELETE"

/-- The path, with the name of the bucket in front of the key. -/
def path (bucket : String) (r : Request) : String :=
  "/" ++ bucket ++ "/" ++ Text.Percent.encodePath r.call.key

/-- The service has to refuse the request if there is an object already. -/
def ifNoneMatch (r : Request) : Bool :=
  match r.call with
  | .put _ _ mode => mode == .createOnly
  | _ => false

/-- The body. -/
def body (r : Request) : String :=
  match r.call with
  | .put _ body _ => body
  | _ => ""

end Request

/-- The request that a call makes, if it has a key. -/
def request? (call : Call) : Option Request :=
  if isKey call.key then some ⟨call⟩ else none

/-- Statuses of success. -/
def isSuccess (status : Nat) : Bool :=
  200 ≤ status && status ≤ 299

/-- A status that a call does not expect. -/
def unexpected (verb key : String) (status : Nat) : ContentFault :=
  .backend (verb ++ " " ++ key ++ " returned HTTP " ++ toString status)

/-- The answer to a call that a reply stands for. -/
def outcome (reply : Reply) : (call : Call) → call.Answer
  | .put key _ _ =>
    if isSuccess reply.status then .ok ()
    else if reply.status = 412 ∨ reply.status = 409 then .error (.alreadyExists key)
    else .error (unexpected "put" key reply.status)
  | .get key =>
    if isSuccess reply.status then
      match Text.Utf8.decode? reply.body with
      | some body => .ok body
      | none => .error (.encoding key)
    else if reply.status = 404 then .error (.notFound key)
    else .error (unexpected "get" key reply.status)
  | .delete key =>
    if isSuccess reply.status ∨ reply.status = 404 then .ok ()
    else .error (unexpected "delete" key reply.status)

/-- Answer a call with a service that replies to requests. -/
def answer {σ : Type} (service : Request → σ → Reply × σ) (s : σ) (call : Call) :
    call.Answer × σ :=
  match request? call with
  | some request =>
    let (reply, s) := service request s
    (outcome reply call, s)
  | none => (match call with
    | .put key .. => .error (.invalidKey key)
    | .get key => .error (.invalidKey key)
    | .delete key => .error (.invalidKey key), s)

/-- A bucket was chosen without its settings. -/
def noSettings : ContentFault :=
  .backend "S3 backend selected without bucket settings"

end ContestPlatform.Content.Bucket
