import ContestPlatform.Json.Writer
import ContestPlatform.Registration.Basic

/-!
# Registrations as JSON
-/

namespace ContestPlatform

/-- The JSON form of a registration: the members of the profile beside the instant. -/
def RegistrationEntry.toJson (e : RegistrationEntry) : Json :=
  .object
    [("user_id", Json.uuid e.profile.id),
     ("name", .text e.profile.name),
     ("email", .text e.profile.email),
     ("usn", .text e.profile.usn),
     ("department", .text e.profile.department),
     ("current_year", Json.int32 e.profile.currentYear),
     ("registered_at", Json.instant e.registeredAt)]

end ContestPlatform
