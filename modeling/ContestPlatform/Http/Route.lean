import ContestPlatform.Http.Message

/-!
# Routes

The paths of the interface and the methods that each of them allows. A part of a path that stands
for an identifier is any nonempty segment; whether it is one is found out later.
-/

namespace ContestPlatform.Http

/-- A path of the interface, with the segments that stand for identifiers as they were sent. -/
inductive Route where
  | health
  | contests
  | contest (id : String)
  | registration (id : String)
  | withdrawal (id : String)
  | problems (id : String)
  | problem (id problemId : String)
  | submissions
  | submission (id : String)
  | submissionStatus (id : String)
  | adminProbe
  | adminContests
  | adminContest (id : String)
  | adminRegistrations (id : String)
  | adminProblems (id : String)
  | adminProblem (id problemId : String)
  | adminLeaderboard (id userId : String)
deriving DecidableEq, Inhabited

/-- A method that some path allows. -/
inductive Method where
  | get
  | post
  | put
  | delete
deriving DecidableEq, Inhabited

/-- What a caller asks for: a route and a method that it allows. -/
inductive Endpoint where
  | health
  | listContests
  | getContest (id : String)
  | register (id : String)
  | unregister (id : String)
  | listProblems (id : String)
  | getProblem (id problemId : String)
  | createSubmission
  | listSubmissions
  | getSubmission (id : String)
  | getSubmissionStatus (id : String)
  | adminProbe
  | createContest
  | updateContest (id : String)
  | deleteContest (id : String)
  | listRegistrations (id : String)
  | createProblem (id : String)
  | updateProblem (id problemId : String)
  | deleteProblem (id problemId : String)
  | updateLeaderboard (id userId : String)
deriving DecidableEq, Inhabited

namespace Method

/-- The name of a method. -/
def name : Method → String
  | .get => "GET"
  | .post => "POST"
  | .put => "PUT"
  | .delete => "DELETE"

/-- The method of a request. `HEAD` is served like `GET`. -/
def ofName? (s : String) : Option Method :=
  match s with
  | "GET" => some .get
  | "HEAD" => some .get
  | "POST" => some .post
  | "PUT" => some .put
  | "DELETE" => some .delete
  | _ => none

end Method

namespace Route

/-- The segments of a path after its leading slash. -/
def segments (path : String) : List String :=
  ((path.toList.splitOn '/').map String.ofList).drop 1

/-- The route of the segments after the head of the interface, none of which may be empty. -/
def ofSegments? : List String → Option Route
  | ["health"] => some .health
  | ["contests"] => some .contests
  | ["contests", id] => some (.contest id)
  | ["contests", id, "register"] => some (.registration id)
  | ["contests", id, "unregister"] => some (.withdrawal id)
  | ["contests", id, "problems"] => some (.problems id)
  | ["contests", id, "problems", problemId] => some (.problem id problemId)
  | ["submissions"] => some .submissions
  | ["submissions", id] => some (.submission id)
  | ["submissions", id, "status"] => some (.submissionStatus id)
  | ["admin"] => some .adminProbe
  | ["admin", "contests"] => some .adminContests
  | ["admin", "contests", id] => some (.adminContest id)
  | ["admin", "contests", id, "registrations"] => some (.adminRegistrations id)
  | ["admin", "contests", id, "problems"] => some (.adminProblems id)
  | ["admin", "contests", id, "problems", problemId] => some (.adminProblem id problemId)
  | ["admin", "contests", id, "leaderboard", userId] => some (.adminLeaderboard id userId)
  | _ => none

/-- The route of a path. -/
def ofPath? (path : String) : Option Route :=
  match segments path with
  | "api" :: "v1" :: rest => if rest.contains "" then none else ofSegments? rest
  | _ => none

/-- The methods that a route allows, in the order in which they are told, and what each does. -/
def endpoints : Route → List (Method × Endpoint)
  | .health => [(.get, .health)]
  | .contests => [(.get, .listContests)]
  | .contest id => [(.get, .getContest id)]
  | .registration id => [(.post, .register id)]
  | .withdrawal id => [(.post, .unregister id)]
  | .problems id => [(.get, .listProblems id)]
  | .problem id problemId => [(.get, .getProblem id problemId)]
  | .submissions => [(.post, .createSubmission), (.get, .listSubmissions)]
  | .submission id => [(.get, .getSubmission id)]
  | .submissionStatus id => [(.get, .getSubmissionStatus id)]
  | .adminProbe => [(.get, .adminProbe)]
  | .adminContests => [(.post, .createContest)]
  | .adminContest id => [(.put, .updateContest id), (.delete, .deleteContest id)]
  | .adminRegistrations id => [(.get, .listRegistrations id)]
  | .adminProblems id => [(.post, .createProblem id)]
  | .adminProblem id problemId =>
    [(.put, .updateProblem id problemId), (.delete, .deleteProblem id problemId)]
  | .adminLeaderboard id userId => [(.put, .updateLeaderboard id userId)]

/-- What a method does on a route. -/
def endpoint? (route : Route) (method : String) : Option Endpoint :=
  (Method.ofName? method).bind fun m => route.endpoints.lookup m

/-- The methods that a route allows, as they are told. -/
def allow (route : Route) : String :=
  String.intercalate "," (route.endpoints.map fun e =>
    match e.1 with
    | .get => "GET,HEAD"
    | method => method.name)

/-- Only administrators get through to the route, whatever they ask for there. -/
def isAdmin : Route → Bool
  | .adminProbe | .adminContests | .adminContest _ | .adminRegistrations _ | .adminProblems _
  | .adminProblem .. | .adminLeaderboard .. => true
  | .health | .contests | .contest _ | .registration _ | .withdrawal _ | .problems _ | .problem ..
  | .submissions | .submission _ | .submissionStatus _ => false

end Route

namespace Endpoint

/-- Only administrators get through to the endpoint. -/
def isAdmin : Endpoint → Bool
  | .adminProbe | .createContest | .updateContest _ | .deleteContest _ | .listRegistrations _
  | .createProblem _ | .updateProblem .. | .deleteProblem .. | .updateLeaderboard .. => true
  | .health | .listContests | .getContest _ | .register _ | .unregister _ | .listProblems _
  | .getProblem .. | .createSubmission | .listSubmissions | .getSubmission _
  | .getSubmissionStatus _ => false

end Endpoint

end ContestPlatform.Http
