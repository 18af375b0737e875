import ContestPlatform.Contest.Operations

/-!
# Operations on registrations

Users register and withdraw while the registration window is open. That a user registers twice is
noticed by the database itself and never by reading beforehand, so of several attempts at the same
time one succeeds.
-/

namespace ContestPlatform.Registration

open Service

/-- The contest, if its registration window is open. -/
def openContest (contestId : Uuid) : Service Contest := do
  let contest ← Contest.find contestId
  if contest.registrationAt (← now) = .open then return contest
  throw (.registrationClosed contestId)

/-- Register a user for a contest. -/
def register (contestId userId : Uuid) : Service Unit := do
  let contest ← openContest contestId
  let profile ← found (.notFound .user userId.text) (← database (.findProfile userId))
  if !contest.isEligible profile.currentYear then
    throw (.invalidYear contestId profile.currentYear)
  if ← database (.insertRegistration contestId userId (← now)) then return ()
  throw (.alreadyRegistered contestId userId)

/-- Withdraw a registration. -/
def unregister (contestId userId : Uuid) : Service Unit := do
  let _ ← openContest contestId
  if ← database (.removeRegistration contestId userId) then return ()
  throw (.notRegistered contestId userId)

/-- Whether a user is registered for a contest. -/
def isRegistered (contestId userId : Uuid) : Service Bool :=
  database (.isRegistered contestId userId)

/-- The registrations for a contest, earliest first. -/
def list (contestId : Uuid) : Service (List RegistrationEntry) := do
  if ← database (.contestExists contestId) then database (.registrations contestId)
  else throw (Contest.missing contestId)

end ContestPlatform.Registration
