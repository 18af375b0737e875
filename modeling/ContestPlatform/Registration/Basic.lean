import ContestPlatform.Instant.Basic
import ContestPlatform.Uuid

/-!
# Registrations

Who is registered for a contest, with the registrant's present profile. The profile comes from the
user directory; the cohort in it decides which contests a user may register for.
-/

namespace ContestPlatform

/-- What the user directory says of a user. -/
structure UserProfile where
  id : Uuid
  name : String
  email : String
  /-- The number under which the university knows the user. -/
  usn : String
  department : String
  /-- The cohort (academic year) of the user. -/
  currentYear : Int32
deriving DecidableEq, Inhabited

/-- A registration with the profile of the registrant. -/
structure RegistrationEntry where
  profile : UserProfile
  registeredAt : Instant
deriving DecidableEq, Inhabited

end ContestPlatform
