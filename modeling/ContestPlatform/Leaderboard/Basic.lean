/-!
# Leaderboard flags

An entry of a leaderboard may be hidden or disqualified. A patch supplies new values for some of
the flags; a flag that it does not supply stays as it is.
-/

namespace ContestPlatform

/-- The flags of a leaderboard entry. -/
structure LeaderboardFlags where
  hidden : Bool
  disqualified : Bool
deriving DecidableEq, Inhabited

/-- New values for some of the flags. -/
structure LeaderboardPatch where
  hidden : Option Bool
  disqualified : Option Bool
deriving DecidableEq, Inhabited

namespace LeaderboardPatch

/-- The patch supplies no flag. -/
def isEmpty (p : LeaderboardPatch) : Bool :=
  p.hidden.isNone && p.disqualified.isNone

end LeaderboardPatch

/-- The flags after a patch. -/
def LeaderboardFlags.apply (f : LeaderboardFlags) (p : LeaderboardPatch) : LeaderboardFlags :=
  ⟨p.hidden.getD f.hidden, p.disqualified.getD f.disqualified⟩

/-- An empty patch changes nothing. -/
theorem LeaderboardFlags.apply_of_isEmpty (f : LeaderboardFlags) {p : LeaderboardPatch}
    (h : p.isEmpty = true) : f.apply p = f := by
  simp only [LeaderboardPatch.isEmpty, Bool.and_eq_true, Option.isNone_iff_eq_none] at h
  simp [apply, h.1, h.2]

end ContestPlatform
