import ContestPlatform.Service.Basic

/-!
# Operations on leaderboards

Ranks are computed elsewhere; administrators hide or disqualify entries.
-/

namespace ContestPlatform.Leaderboard

open Service

/-- The fault of an entry that does not exist. -/
def missing (contestId userId : Uuid) : Fault :=
  .notFound .leaderboardEntry (contestId.text ++ "/" ++ userId.text)

/-- Set the flags that a patch supplies. -/
def update (contestId userId : Uuid) (patch : LeaderboardPatch) : Service Unit := do
  if patch.isEmpty then throw (.validation .nothingToUpdate)
  if ← database (.patchRanking contestId userId patch) then return ()
  throw (missing contestId userId)

end ContestPlatform.Leaderboard
