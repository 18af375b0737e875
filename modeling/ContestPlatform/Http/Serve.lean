import ContestPlatform.Contest.Operations
import ContestPlatform.Fault.Json
import ContestPlatform.Http.Encoding
import ContestPlatform.Http.MediaType
import ContestPlatform.Http.Route
import ContestPlatform.Leaderboard.Operations
import ContestPlatform.Problem.Operations
import ContestPlatform.Registration.Json
import ContestPlatform.Registration.Operations
import ContestPlatform.Input.Form
import ContestPlatform.Input.Query
import ContestPlatform.Submission.Operations
import ContestPlatform.Text.Percent

/-!
# Serving requests

Every request has one response. The arguments of an endpoint are read in a fixed order (the caller,
the path or the query, the body) and the first that cannot be read decides the response; then the
body is checked against its rules; then the service operation runs. On the routes of administrators
the caller is checked before anything else, and so before the method is.
-/

namespace ContestPlatform.Http

open Service
open Json (Refusal)

/-! ## Requests that do not reach an operation -/

/-- Why a request does not reach an operation although its path and method do. -/
inductive Rejection where
  /-- A segment of the path is not an identifier. -/
  | path
  | query
  /-- The body is not said to be JSON. -/
  | mediaType
  /-- The body is too long. -/
  | tooLong
  /-- The body is not JSON. -/
  | malformed
  /-- The body is JSON of another shape. -/
  | mismatch
deriving DecidableEq, Inhabited

namespace Rejection

/-- The rejection of a body that was refused. -/
def ofRefusal : Refusal → Rejection
  | .malformed => .malformed
  | .mismatch => .mismatch

/-- The status of a rejection. -/
def status : Rejection → Nat
  | .path | .query | .malformed => 400
  | .tooLong => 413
  | .mediaType => 415
  | .mismatch => 422

/-- How the text of a rejection begins. -/
def head : Rejection → String
  | .path => "Invalid URL"
  | .query => "Failed to deserialize query string"
  | .mediaType => "Expected request with `Content-Type: application/json`"
  | .tooLong => "Failed to buffer the request body"
  | .malformed => "Failed to parse the request body as JSON"
  | .mismatch => "Failed to deserialize the JSON body into the target type"

/-- The response to a request that is rejected. -/
def response (r : Rejection) : Response :=
  .of r.status (.text r.head)

end Rejection

/-- Why a request is not answered with the result of an operation. -/
inductive Failure where
  | rejection (r : Rejection)
  | fault (f : Fault)

/-- The response to a failure. -/
def Failure.response : Failure → Response
  | .rejection r => r.response
  | .fault f => .json f.status f.body

/-- A program that responds, or fails on the way. -/
abbrev Handler (α : Type) : Type :=
  ExceptT Failure StoreProgram α

/-! ## Arguments -/

/-- The header that carries the caller's identity. -/
def identityHeader : String := "x-user-id"

/-- The caller, if the request names one. -/
def caller? (r : Request) : Option Uuid :=
  (r.visibleHeader? identityHeader).bind fun value => Uuid.read? (Text.trim value.toList)

/-- Run a service operation. -/
def run {α : Type} (operation : Service α) : Handler α :=
  ExceptT.adapt Failure.fault operation

/-- Reject a request. -/
def reject {α : Type} (r : Rejection) : Handler α :=
  throw (.rejection r)

/-- The caller, who has to be known. -/
def caller (r : Request) : Handler Uuid :=
  match caller? r with
  | some id => return id
  | none => throw (.fault .unauthorized)

/-- The identifier that a segment of the path stands for. -/
def identifier (segment : String) : Handler Uuid :=
  match (Text.Percent.decodeText? segment).bind Uuid.ofText? with
  | some id => return id
  | none => reject .path

/-- The query of a request. -/
def query {α : Type} (r : Request) (read : String → Option α) : Handler α :=
  match read (r.address.query.getD "") with
  | some q => return q
  | none => reject .query

/-- The greatest number of bytes of a body. -/
def longestBody : Nat := 2097152

/-- The body of a request. -/
def body {α : Type} (r : Request) (form : Input.Form α) : Handler α := do
  if !(r.visibleHeader? "content-type").any MediaType.isJson then reject .mediaType
  if longestBody < r.body.utf8ByteSize then reject .tooLong
  match form.read.ofText r.body with
  | .ok a => return a
  | .error refusal => reject (.ofRefusal refusal)

/-- Accept a body that satisfies its rules. -/
def check {α : Type} (form : Input.Form α) (a : α) : Handler Unit :=
  match form.check a with
  | .ok () => return ()
  | .error fault => throw (.fault fault)

/-- Let administrators through. -/
def admitAdmin (r : Request) : Handler Unit := do
  let userId ← caller r
  if !(← run (database (.isAdmin userId))) then throw (.fault .adminRequired)

/-! ## Endpoints -/

/-- The version that the liveness probe tells. -/
def version : String := "0.1.0"

/-- The response to a change of a registration. -/
def registrationBody (contestId userId : Uuid) (registered : Bool) : Json :=
  .object
    [("contest_id", Json.uuid contestId),
     ("user_id", Json.uuid userId),
     ("registered", .bool registered)]

/-- A list with the number of its page. -/
def pageBody {α : Type} (name : String) (write : α → Json) (items : List α) (page : UInt32) :
    Json :=
  .object [(name, .list (items.map write)), ("page", Json.nat page.toNat)]

/-- A list of what belongs to a contest. -/
def contestBody {α : Type} (contestId : Uuid) (name : String) (write : α → Json)
    (items : List α) : Json :=
  .object [("contest_id", Json.uuid contestId), (name, .list (items.map write))]

/-- Let the owner of a submission through. -/
def admitOwner (userId owner id : Uuid) : Handler Unit := do
  if userId ≠ owner then throw (.fault (.notOwner .submission id))

/-- What an endpoint does with a request that has got through to it. -/
def handle (r : Request) : Endpoint → Handler Response
  | .health =>
    return .json 200 (.object [("status", .text "healthy"), ("version", .text version)])
  | .listContests => do
    let q ← query r Input.ContestsQuery.ofText?
    let page := q.page.getD 0
    return .json 200 (pageBody "contests" ContestDetail.toJson (← run (Contest.list page)) page)
  | .getContest id => do
    let id ← identifier id
    return .json 200 (← run (Contest.get id (caller? r))).toJson
  | .register id => do
    let userId ← caller r
    let id ← identifier id
    run (Registration.register id userId)
    return .json 201 (registrationBody id userId true)
  | .unregister id => do
    let userId ← caller r
    let id ← identifier id
    run (Registration.unregister id userId)
    return .json 200 (registrationBody id userId false)
  | .listProblems id => do
    let userId ← caller r
    let id ← identifier id
    let _ ← run (Contest.checkVisibility id userId)
    return .json 200 (contestBody id "problems" ProblemOverview.toJson (← run (Problem.list id)))
  | .getProblem id problemId => do
    let userId ← caller r
    let id ← identifier id
    let problemId ← identifier problemId
    let _ ← run (Contest.checkVisibility id userId)
    return .json 200 (← run (Problem.get id problemId)).toJson
  | .createSubmission => do
    let userId ← caller r
    let new ← body r Input.submission
    check Input.submission new
    let _ ← run (Contest.checkVisibility new.contestId userId)
    let submission ← run (Submission.create userId new)
    return .json 202
      (.object [("id", Json.uuid submission.id), ("status", submission.state.toJson)])
  | .listSubmissions => do
    let userId ← caller r
    let q ← query r Input.SubmissionsQuery.ofText?
    let page := q.page.getD 0
    return .json 200
      (pageBody "submissions" Submission.toJson (← run (Submission.list userId q.problemId page))
        page)
  | .getSubmission id => do
    let userId ← caller r
    let id ← identifier id
    let details ← run (Submission.details id)
    admitOwner userId details.submission.userId id
    return .json 200 details.toJson
  | .getSubmissionStatus id => do
    let userId ← caller r
    let id ← identifier id
    let status ← run (Submission.status id)
    admitOwner userId status.userId id
    return .json 200 status.toJson
  | .adminProbe => do
    let userId ← caller r
    return .json 200 (.object [("user_id", Json.uuid userId), ("is_admin", .bool true)])
  | .createContest => do
    let terms ← body r Input.contest
    check Input.contest terms
    return .json 201 (← run (Contest.create terms)).toJson
  | .updateContest id => do
    let id ← identifier id
    let terms ← body r Input.contest
    check Input.contest terms
    return .json 200 (← run (Contest.update id terms)).toJson
  | .deleteContest id => do
    let id ← identifier id
    run (Contest.delete id)
    return .empty 204
  | .listRegistrations id => do
    let id ← identifier id
    return .json 200
      (contestBody id "registrations" RegistrationEntry.toJson (← run (Registration.list id)))
  | .createProblem id => do
    let id ← identifier id
    let new ← body r Input.newProblem
    check Input.newProblem new
    return .json 201 (← run (Problem.create id new)).toJson
  | .updateProblem id problemId => do
    let id ← identifier id
    let problemId ← identifier problemId
    let change ← body r Input.problemChange
    check Input.problemChange change
    return .json 200 (← run (Problem.update id problemId change)).toJson
  | .deleteProblem id problemId => do
    let id ← identifier id
    let problemId ← identifier problemId
    run (Problem.delete id problemId)
    return .empty 204
  | .updateLeaderboard id userId => do
    let id ← identifier id
    let userId ← identifier userId
    let patch ← body r Input.leaderboard
    run (Leaderboard.update id userId patch)
    return .empty 204

/-- Run a handler, and respond to its failure. -/
def respond (handler : Handler Response) : StoreProgram Response := do
  match ← handler.run with
  | .ok response => return response
  | .error failure => return failure.response

/-- Serve a request to an endpoint. -/
def serveEndpoint (r : Request) (e : Endpoint) : StoreProgram Response :=
  respond do
    if e.isAdmin then admitAdmin r
    handle r e

/-- Serve a request whose method its route does not allow. On the routes of administrators only they
    are told so. -/
def serveNotAllowed (r : Request) (route : Route) : StoreProgram Response :=
  respond do
    if route.isAdmin then admitAdmin r
    return .empty 405

/-! ## Whole requests -/

/-- Compress the body of a response if the caller prefers it and the body is worth it. -/
def compress (r : Request) (response : Response) : Response :=
  { response with compressed := Encoding.prefersGzip r && response.body.isLong }

/-- The response without its body, if only the head was asked for. -/
def withoutBody (r : Request) (response : Response) : Response :=
  if r.method = "HEAD" then { response with body := .empty } else response

/-- The response with the methods that a route allows. -/
def tellAllowed (route : Route) (response : Response) : Response :=
  { response with allow := some route.allow }

/-- Serve a request. Any page may ask what is allowed, whatever the path, and whoever asks for what
    a route does not allow is told what it does. -/
def serve (r : Request) : StoreProgram Response :=
  let route := Route.ofPath? r.address.path
  if r.method = "OPTIONS" then
    return { Response.empty 200 with allow := route.map Route.allow, shared := true }
  else
    match route with
    | none => return .empty 404
    | some route =>
      match route.endpoint? r.method with
      | none => return tellAllowed route (withoutBody r (compress r (← serveNotAllowed r route)))
      | some e => return withoutBody r (compress r (← serveEndpoint r e))

/-- The response to a request that takes too long. -/
def timedOut : Response :=
  .empty 408

end ContestPlatform.Http
