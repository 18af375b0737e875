import ContestPlatform.Service.Basic

/-!
# Operations on contests

Contests are created, replaced and deleted by administrators. A viewer sees a contest with its
present statuses, and its problems only if registered and only once the contest has started; they
stay visible after its end.
-/

namespace ContestPlatform.Contest

open Service

/-- The number of contests on a page. -/
def pageSize : Nat := 20

/-- The fault of a contest that does not exist. -/
def missing (id : Uuid) : Fault :=
  .notFound .contest id.text

/-- Accept terms whose windows are in order. -/
def checkWindows (terms : ContestTerms) : Service Unit :=
  match terms.windowFlaw? with
  | some flaw => throw (.validation flaw.objection)
  | none => return ()

/-- Create a contest. -/
def create (terms : ContestTerms) : Service Contest := do
  checkWindows terms
  let contest := ofTerms (← freshId) terms
  database (.insertContest contest)
  return contest

/-- Replace every field of a contest. -/
def update (id : Uuid) (terms : ContestTerms) : Service Contest := do
  checkWindows terms
  let contest := ofTerms id terms
  if ← database (.replaceContest contest) then return contest
  throw (missing id)

/-- Delete a contest, which must not have problems any more. -/
def delete (id : Uuid) : Service Unit := do
  if ← database (.removeContest id) then return ()
  throw (missing id)

/-- The contest with an identifier. -/
def find (id : Uuid) : Service Contest := do
  found (missing id) (← database (.findContest id))

/-- A contest with its present statuses, and whether the viewer is registered if there is one. -/
def get (id : Uuid) (viewer : Option Uuid) : Service ContestDetail := do
  let contest ← find id
  let isRegistered ←
    match viewer with
    | some userId => some <$> database (.isRegistered id userId)
    | none => pure none
  return contest.detailAt (← now) isRegistered

/-- The details of contests, each at the instant at which its turn comes. -/
def details : List Contest → Service (List ContestDetail)
  | [] => return []
  | contest :: rest => do
    let detail := contest.detailAt (← now) none
    return detail :: (← details rest)

/-- One page of all contests, latest start first. -/
def list (page : UInt32) : Service (List ContestDetail) := do
  details (← database (.contestPage pageSize (page.toNat * pageSize)))

/-- Let a user through who may see the problems of a contest. -/
def checkVisibility (contestId userId : Uuid) : Service Contest := do
  let contest ← find contestId
  if !(← database (.isRegistered contestId userId)) then
    throw (.userNotRegistered contestId userId)
  if contest.runningAt (← now) = .upcoming then
    throw (.contestNotRunning contestId)
  return contest

end ContestPlatform.Contest
