import ContestPlatform.Json.Reader
import ContestPlatform.Json.Value
import ContestPlatform.Leaderboard.Basic

/-!
# Leaderboard patches as JSON
-/

namespace ContestPlatform.LeaderboardPatch

open Json (Reader Fields FieldReader)

/-- The fields of a patch. -/
def fields : Fields [Option Bool, Option Bool] :=
  .cons (.optional "hidden" Reader.bool) <|
  .cons (.optional "disqualified" Reader.bool) .nil

/-- Read a patch. -/
def read : Reader LeaderboardPatch :=
  fields.read.map fun (hidden, disqualified, ()) => ⟨hidden, disqualified⟩

/-- The JSON form of a patch, with a member that says whether it is empty. -/
def toJson (p : LeaderboardPatch) : Json :=
  .object
    [("hidden", Json.orNull .bool p.hidden),
     ("disqualified", Json.orNull .bool p.disqualified),
     ("is_empty", .bool p.isEmpty)]

end ContestPlatform.LeaderboardPatch
