import ContestPlatform.Proofs.Courses
import ContestPlatform.Proofs.StoredWindows
import ContestPlatform.Proofs.WritingCalls

/-!
# Registrations after the end of registration

As long as a contest is neither replaced nor removed, operations that are performed one after
another find it as it is, and time does not turn back. So once registration for it is over nobody
registers any more and nobody withdraws, whoever it is, and the registrations stay as they are
whatever else is done. This needs nothing of the four instants of the contest, which may lie in any
order.
-/

namespace ContestPlatform

open Interleaving Registration

/-! ## Contests that stand -/

namespace Operation

/-- The operation is to replace or to remove a contest. -/
def ChangesContest (contestId : Uuid) : Operation → Prop
  | .updateContest id _ => id = contestId
  | .deleteContest id => id = contestId
  | _ => False

end Operation

namespace Course

variable {κ : Type} [ContentStore κ] {mayFail : Prop} {s t : Stores κ} {contestId userId : Uuid}
  {result : Except Fault Json}

/-- An operation that has failed to replace or to remove a contest leaves the tables as they are. -/
theorem database_of_change {operation : Operation} {fault : Fault}
    (h : Course mayFail operation.run.run s (failed fault) t)
    (hchange : operation.ChangesContest contestId) : t.database = s.database := by
  cases operation with
  | updateContest id terms =>
    rw [Contest.calls_update] at h
    split at h
    · rw [h.of_done.2]
    obtain ⟨replaced, _, hreply, hrest⟩ := h.of_ask
    rcases replaced with fault | (_ | _)
    · rw [hrest.of_done.2, hreply.effect.1.of_error]
    · rw [hrest.of_done.2, hreply.effect.1.of_denies rfl]
    · exact nomatch hrest.of_done.1
  | deleteContest id =>
    rw [Contest.calls_delete] at h
    obtain ⟨removed, _, hreply, hrest⟩ := h.of_ask
    rcases removed with fault | (_ | _)
    · rw [hrest.of_done.2, hreply.effect.1.of_error]
    · rw [hrest.of_done.2, hreply.effect.1.of_denies rfl]
    · exact nomatch hrest.of_done.1
  | _ => exact hchange.elim

/-- What the calls keep that neither replace nor remove the contest is kept by every operation that
    does not succeed to. -/
theorem frame_standing {operation : Operation} {I : Database → Prop}
    (h : Course mayFail operation.run.run s (.done result) t)
    (hstands : operation.ChangesContest contestId → ∃ fault, result = .error fault)
    (hkeep : ∀ (db db' : Database) call answer, operation.MayAsk (.database call) →
      (∀ c, call = .replaceContest c → c.id ≠ contestId) → call ≠ .removeContest contestId →
      db.Effect call answer db' → I db → I db')
    (hs : I s.database) : I t.database := by
  -- Only the two operations that are to change the contest make the two calls that may.
  by_cases hchange : operation.ChangesContest contestId
  · obtain ⟨fault, rfl⟩ := hstands hchange
    rw [h.database_of_change hchange]
    exact hs
  · refine h.frame (I := fun s => I s.database) operation.within_run ?_ hs
    intro s call answer s' hask hreply hs
    cases call with
    | database call =>
      refine hkeep _ _ call answer hask ?_ ?_ hreply.effect.1 hs
      · rintro c rfl rfl
        obtain ⟨terms, rfl⟩ := hask.replaceContest
        exact hchange rfl
      · rintro rfl
        obtain rfl := hask.removeContest
        exact hchange rfl
    | now | freshId | content =>
      rw [hreply.database_of_other (fun _ => nofun)]
      exact hs

end Course

/-! ## The ledger of a contest -/

/-- The registrations for a contest, with the instants at which they were made. -/
def Database.ledger (db : Database) (contestId : Uuid) : List Database.RegistrationRow :=
  db.registrations.filter (·.contestId == contestId)

/-- The registrations for a contest are changed by calls that name the contest. -/
theorem Database.Effect.ledger_eq {db db' : Database} {call : Database.Call} {answer : call.Answer}
    {contestId : Uuid} (h : Effect db call answer db')
    (hinsert : ∀ userId registeredAt, call ≠ .insertRegistration contestId userId registeredAt)
    (hremove : ∀ userId, call ≠ .removeRegistration contestId userId)
    (hcontest : call ≠ .removeContest contestId) : db'.ledger contestId = db.ledger contestId := by
  unfold ledger
  cases h with
  | @registrationAdded c userId registeredAt stamp _ _ _ _ =>
    have hother : c ≠ contestId := by
      rintro rfl
      exact hinsert userId registeredAt rfl
    simp [List.filter_append, hother]
  | @registrationRemoved c userId _ =>
    have hother : contestId ≠ c := by
      rintro rfl
      exact hremove userId rfl
    refine (List.filter_filter ..).trans (List.filter_congr fun r _ => ?_)
    by_cases hr : r.contestId = contestId <;> simp [hr, hother]
  | @contestRemoved c _ _ =>
    -- Another contest takes its own registrations along and no others.
    have hother : contestId ≠ c := by
      rintro rfl
      exact hcontest rfl
    refine (List.filter_filter ..).trans (List.filter_congr fun r _ => ?_)
    by_cases hr : r.contestId = contestId <;> simp [hr, hother]
  | _ => rfl

theorem Contest.registrationAt_ne_open {c : Contest} {now : Instant}
    (h : c.registrationEnd < now) : c.registrationAt now ≠ .open := by
  unfold registrationAt
  split
  case isTrue => exact nofun
  case isFalse =>
    rw [if_neg (Instant.not_le.mpr h)]
    exact nofun

/-- Registration for a contest is over, with these registrations. -/
structure Stores.Closed {κ : Type} (contest : Contest) (contestId : Uuid)
    (ledger : List Database.RegistrationRow) (s : Stores κ) : Prop where
  found : s.database.contest? contestId = some contest
  past : contest.registrationEnd < s.now
  ledger_eq : s.database.ledger contestId = ledger

namespace Course

variable {κ : Type} [ContentStore κ] {mayFail : Prop} {s t : Stores κ} {contestId userId : Uuid}
  {contest : Contest} {ledger : List Database.RegistrationRow} {result : Except Fault Json}

/-- Where registration is over, an operation that needs it to be open is refused before it goes
    on. -/
theorem refused_of_closed {next : Contest → StoreProgram (Except Fault Json)}
    (h : Course mayFail (openCalls contestId next) s (.done result) t)
    (hs : s.Closed contest contestId ledger) : t.database = s.database ∧
      (result = .error (.registrationClosed contestId) ∨
        mayFail ∧ ∃ fault, result = .error fault ∧ fault.kind = .infrastructure) := by
  obtain ⟨known, s₁, hfind, hrest⟩ := h.of_ask
  have hsame : s₁.database = s.database := hfind.effect.1.of_reads rfl
  rcases hfind.database_eq with rfl | ⟨hmay, fault, rfl, hkind⟩
  · simp only [Database.answer, hs.found] at hrest
    -- The contest was found, so the clock is looked at.
    obtain ⟨now, s₂, hnow, hrest⟩ := hrest.of_ask
    have hpast : contest.registrationEnd < now := by
      rw [← hnow.now_eq]
      exact Instant.lt_of_lt_of_le hs.past (Instant.le_trans hfind.now_le hnow.now_le)
    simp only [if_neg (Contest.registrationAt_ne_open hpast)] at hrest
    obtain ⟨hdone, rfl⟩ := hrest.of_done
    cases hdone
    exact ⟨hnow.database_of_now.trans hsame, Or.inl rfl⟩
  · obtain ⟨hdone, rfl⟩ := hrest.of_done
    cases hdone
    exact ⟨hsame, Or.inr ⟨hmay, fault, rfl, hkind⟩⟩

/-- So nobody is registered, and no registration is withdrawn. -/
theorem registering_of_closed {operation : Operation}
    (h : Course mayFail operation.run.run s (.done result) t)
    (hs : s.Closed contest contestId ledger)
    (hregisters : operation = .register contestId userId ∨
      operation = .unregister contestId userId) : t.database = s.database ∧
      (result = .error (.registrationClosed contestId) ∨
        mayFail ∧ ∃ fault, result = .error fault ∧ fault.kind = .infrastructure) := by
  rcases hregisters with rfl | rfl
  · rw [calls_register] at h
    exact h.refused_of_closed hs
  · rw [calls_unregister] at h
    exact h.refused_of_closed hs

/-- Registration stays closed, with the same registrations. -/
theorem closed {operation : Operation} (h : Course mayFail operation.run.run s (.done result) t)
    (hs : s.Closed contest contestId ledger)
    (hstands : operation.ChangesContest contestId → ∃ fault, result = .error fault) :
    t.Closed contest contestId ledger := by
  have hpast := Instant.lt_of_lt_of_le hs.past h.now_le
  -- Calls that name the contest in the ledger come from these two, which do not get to them.
  by_cases hregisters : ∃ userId, operation = .register contestId userId ∨
      operation = .unregister contestId userId
  · obtain ⟨userId, hregisters⟩ := hregisters
    have hsame := (h.registering_of_closed hs hregisters).1
    exact ⟨hsame ▸ hs.found, hpast, hsame ▸ hs.ledger_eq⟩
  · have hkept : t.database.contest? contestId = some contest ∧
        t.database.ledger contestId = ledger := by
      refine h.frame_standing (I := fun db => db.contest? contestId = some contest ∧
        db.ledger contestId = ledger) hstands ?_ ⟨hs.found, hs.ledger_eq⟩
      rintro db db' call answer hask hreplace hremove heffect ⟨hfound, hledger⟩
      refine ⟨heffect.contest?_eq hfound hreplace hremove, ?_⟩
      refine (heffect.ledger_eq ?_ ?_ hremove).trans hledger
      · rintro userId registeredAt rfl
        exact hregisters ⟨userId, Or.inl hask.insertRegistration⟩
      · rintro userId rfl
        exact hregisters ⟨userId, Or.inr hask.removeRegistration⟩
    exact ⟨hkept.1, hpast, hkept.2⟩

end Course

section Runs

variable {κ : Type} [ContentStore κ] {mayFail : Prop} {s : Stores κ} {trace : List (Performed κ)}
  {contestId : Uuid} {contest : Contest}

/-- Once the clock is past the end of registration for a contest, and until the contest is replaced
    or removed, nobody registers for it or withdraws: who tries is told that registration is closed,
    unless the stores fail. The registrations stay as they are whatever else is done. -/
theorem ledger_frozen (hrun : Succession mayFail s trace)
    (hcontest : s.database.contest? contestId = some contest)
    (hpast : contest.registrationEnd < s.now)
    (hstands : ∀ d ∈ trace, d.operation.ChangesContest contestId → d.Failed) :
    ∀ d ∈ trace, d.stores.database.ledger contestId = s.database.ledger contestId ∧
      ∀ userId, (d.operation = .register contestId userId ∨
        d.operation = .unregister contestId userId) →
          d.result = .error (.registrationClosed contestId) ∨ mayFail ∧ d.Broken := by
  have hclosed : s.Closed contest contestId (s.database.ledger contestId) :=
    ⟨hcontest, hpast, rfl⟩
  intro d hd
  obtain ⟨hafter, before, hbefore, hcourse⟩ :=
    hrun.frame hstands (fun s d hstands hs h => h.closed hs hstands) hclosed d hd
  exact ⟨hafter.ledger_eq, fun userId hregisters =>
    (hcourse.registering_of_closed hbefore hregisters).2⟩

end Runs

/-! ### A contest after its registration -/

/-- A contest of which registration is open for the first ten seconds, and that runs from the
    twentieth to the thirtieth second. -/
def earlyRow : Database.ContestRow where
  id := .ofNat 2
  name := "Quiz"
  description := ""
  registrationStart := 0
  registrationEnd := 10000000
  start := 20000000
  finish := 30000000
  eligible := "1"

/-- Stores with the contest and a user who is registered, after registration. -/
def afterRegistration : Stores Content.Memory where
  now := ⟨11, 0⟩
  ids := .initial
  database := { Database.empty with
    users := [{ (default : UserProfile) with id := .ofNat 7 }]
    contests := [earlyRow]
    registrations := [⟨.ofNat 2, .ofNat 7, 5000000⟩] }
  content := .empty

/-- The registered user cannot withdraw any more, and a user who is not known cannot register. -/
theorem withdrawal_too_late :
    ∃ trace, Succession False afterRegistration trace ∧
      trace.map Performed.operation =
        [.unregister (.ofNat 2) (.ofNat 7), .register (.ofNat 2) (.ofNat 8)] ∧
      ∀ d ∈ trace, d.result = .error (.registrationClosed (.ofNat 2)) ∧
        d.stores.database.ledger (.ofNat 2) = [⟨.ofNat 2, .ofNat 7, 5000000⟩] := by
  obtain ⟨trace, hrun, hoperations⟩ : ∃ trace, Succession False afterRegistration trace ∧
      trace.map Performed.operation =
        [.unregister (.ofNat 2) (.ofNat 7), .register (.ofNat 2) (.ofNat 8)] :=
    ⟨_, .cons (.of_run _ _) (.cons (.of_run _ _) (.nil _)), rfl⟩
  have hregisters : ∀ d ∈ trace, ∃ userId, d.operation = .register (.ofNat 2) userId ∨
      d.operation = .unregister (.ofNat 2) userId := by
    intro d hd
    have hoperation := List.mem_map_of_mem (f := Performed.operation) hd
    simp only [hoperations, List.mem_cons, List.not_mem_nil, or_false] at hoperation
    rcases hoperation with h | h
    · exact ⟨_, Or.inr h⟩
    · exact ⟨_, Or.inl h⟩
  refine ⟨trace, hrun, hoperations, fun d hd => ?_⟩
  have hcontest : afterRegistration.database.contest? (.ofNat 2) = some earlyRow.contest := rfl
  have hfrozen := ledger_frozen hrun hcontest (by decide) (fun d hd hchange => ?_) d hd
  · obtain ⟨hledger, hrefused⟩ := hfrozen
    obtain ⟨userId, hregister⟩ := hregisters d hd
    rcases hrefused userId hregister with hclosed | ⟨hmay, -⟩
    · exact ⟨hclosed, hledger⟩
    · exact hmay.elim
  · -- To register and to withdraw is not to change the contest.
    obtain ⟨userId, h | h⟩ := hregisters d hd
    · exact (h ▸ hchange : Operation.ChangesContest _ (.register _ _)).elim
    · exact (h ▸ hchange : Operation.ChangesContest _ (.unregister _ _)).elim

end ContestPlatform
