import ContestPlatform.Contest.Basic
import ContestPlatform.Json.Reader
import ContestPlatform.Json.Writer

/-!
# Contests as JSON

The JSON forms of contests, their terms and their details. A detail is written with the members of
its contest beside its own.
-/

namespace ContestPlatform

open Json (Reader Fields FieldReader Values)

namespace ContestTerms

/-- The members that terms are written as. -/
def members (t : ContestTerms) : List (String × Json) :=
  [("name", .text t.name),
   ("description", .text t.description),
   ("registration_start_time", Json.instant t.registrationStart),
   ("registration_end_time", Json.instant t.registrationEnd),
   ("start_time", Json.instant t.start),
   ("end_time", Json.instant t.finish),
   ("eligible_to", Json.int32List t.eligible)]

/-- The JSON form of terms. -/
def toJson (t : ContestTerms) : Json :=
  .object t.members

/-- The fields of terms; the description may have a default. -/
def fields (description : FieldReader String) :
    Fields [String, String, Instant, Instant, Instant, Instant, List Int32] :=
  .cons (.required "name" Reader.text) <|
  .cons description <|
  .cons (.required "registration_start_time" Reader.instant) <|
  .cons (.required "registration_end_time" Reader.instant) <|
  .cons (.required "start_time" Reader.instant) <|
  .cons (.required "end_time" Reader.instant) <|
  .cons (.required "eligible_to" Reader.int32List) .nil

/-- Terms from the values of their fields. -/
def ofValues :
    Values [String, String, Instant, Instant, Instant, Instant, List Int32] → ContestTerms
  | (name, description, registrationStart, registrationEnd, start, finish, eligible, ()) =>
    { name, description, registrationStart, registrationEnd, start, finish, eligible }

/-- Read terms. -/
def read : Reader ContestTerms :=
  (fields (.required "description" Reader.text)).read.map ofValues

end ContestTerms

namespace Contest

/-- The members that a contest is written as. -/
def members (c : Contest) : List (String × Json) :=
  ("id", Json.uuid c.id) :: c.toContestTerms.members

/-- The JSON form of a contest. -/
def toJson (c : Contest) : Json :=
  .object c.members

/-- Read a contest. -/
def read : Reader Contest :=
  (Fields.cons (.required "id" Reader.uuid)
    (ContestTerms.fields (.required "description" Reader.text))).read.map
    fun (id, values) => .ofTerms id (ContestTerms.ofValues values)

end Contest

/-- The JSON form of a detail. Whether the viewer is registered is left out when unknown. -/
def ContestDetail.toJson (d : ContestDetail) : Json :=
  .object (d.contest.members ++
    [("registration_status", .text d.registration.name), ("running_status", .text d.running.name)] ++
    Json.optional "is_registered" Json.bool d.isRegistered)

/-- Read a registration status. -/
def RegistrationStatus.read : Reader RegistrationStatus :=
  Reader.word table

/-- Read a running status. -/
def RunningStatus.read : Reader RunningStatus :=
  Reader.word table

end ContestPlatform
