import ContestPlatform.Fault.Basic
import ContestPlatform.Json.Value

/-!
# Faults as JSON

The body of a response that reports a fault, and the description of a fault for a log.
-/

namespace ContestPlatform.Fault

/-- The body of a response. -/
def body (f : Fault) : Json :=
  .object [("error", .object
    [("code", .text f.code), ("message", .text f.publicText)])]

/-- The members that describe a fault. -/
def members (f : Fault) : List (String × Json) :=
  [("error", .text f.code), ("kind", .text f.kind.name), ("status", Json.nat f.status)] ++
    Json.optional "message" .text f.notice?

/-- The description of a fault. -/
def toJson (f : Fault) : Json :=
  .object f.members

end ContestPlatform.Fault
