import ContestPlatform.Instant.Basic
import ContestPlatform.Uuid

/-!
# Contests

A contest has a window for registration, closed at both ends, and a window in which it runs, open
at its end. Its two statuses are functions of the present instant and are never stored.
-/

namespace ContestPlatform

/-- What an administrator says of a contest. -/
structure ContestTerms where
  name : String
  description : String
  registrationStart : Instant
  registrationEnd : Instant
  start : Instant
  finish : Instant
  /-- The cohorts (academic years) that may register. -/
  eligible : List Int32
deriving DecidableEq, Inhabited

/-- A contest. -/
structure Contest extends ContestTerms where
  id : Uuid
deriving DecidableEq, Inhabited

/-- Where the present lies with respect to the registration window. -/
inductive RegistrationStatus where
  | notStarted
  | open
  | closed
deriving DecidableEq, Inhabited

/-- Where the present lies with respect to the window in which a contest runs. -/
inductive RunningStatus where
  | upcoming
  | running
  | ended
deriving DecidableEq, Inhabited

/-- A contest as one viewer sees it at one instant. -/
structure ContestDetail where
  contest : Contest
  registration : RegistrationStatus
  running : RunningStatus
  /-- Whether the viewer is registered; absent if the viewer is unknown. -/
  isRegistered : Option Bool
deriving DecidableEq, Inhabited

/-- Why the windows of a contest are refused. -/
inductive WindowFlaw where
  /-- Registration ends before it starts. -/
  | registration
  /-- The contest does not start before it ends. -/
  | running
deriving DecidableEq

/-- The first flaw of the two windows, if there is one. -/
def ContestTerms.windowFlaw? (t : ContestTerms) : Option WindowFlaw :=
  if t.registrationEnd < t.registrationStart then some .registration
  else if t.finish ≤ t.start then some .running
  else none

namespace Contest

/-- The contest with given terms. -/
def ofTerms (id : Uuid) (terms : ContestTerms) : Contest :=
  { terms with id }

/-- The status of registration: open from its first instant to its last one. -/
def registrationAt (c : Contest) (now : Instant) : RegistrationStatus :=
  if now < c.registrationStart then .notStarted
  else if now ≤ c.registrationEnd then .open
  else .closed

/-- The status of the contest: running from its start until just before its end. -/
def runningAt (c : Contest) (now : Instant) : RunningStatus :=
  if now < c.start then .upcoming
  else if now < c.finish then .running
  else .ended

/-- A cohort that may register. -/
def isEligible (c : Contest) (year : Int32) : Bool :=
  c.eligible.contains year

/-- The contest with its statuses at an instant. -/
def detailAt (c : Contest) (now : Instant) (isRegistered : Option Bool) : ContestDetail :=
  ⟨c, c.registrationAt now, c.runningAt now, isRegistered⟩

end Contest

namespace RegistrationStatus

/-- The statuses by their names. -/
def table : List (String × RegistrationStatus) :=
  [("not_started", .notStarted), ("open", .open), ("closed", .closed)]

/-- The name of a status. -/
def name : RegistrationStatus → String
  | .notStarted => "not_started"
  | .open => "open"
  | .closed => "closed"

end RegistrationStatus

namespace RunningStatus

/-- The statuses by their names. -/
def table : List (String × RunningStatus) :=
  [("upcoming", .upcoming), ("running", .running), ("ended", .ended)]

/-- The name of a status. -/
def name : RunningStatus → String
  | .upcoming => "upcoming"
  | .running => "running"
  | .ended => "ended"

end RunningStatus

end ContestPlatform
