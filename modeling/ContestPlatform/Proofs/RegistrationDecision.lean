import ContestPlatform.Content.Memory
import ContestPlatform.Proofs.DatabaseEffects
import ContestPlatform.Proofs.Demands
import ContestPlatform.Registration.Operations

/-!
# Who may register, and who may withdraw

To register takes a contest that exists, an instant within its registration window, a profile, an
eligible cohort, and that the user is not registered yet; to withdraw takes the contest, the window
and the registration. These demands count in this order: the first one that is not met is the fault,
and then nothing changes. If all are met the pair of the contest and the user is added or removed,
and nothing else changes, so to withdraw undoes a registration.

The cohorts that are eligible are kept as a text, and what counts is what is read from it. An instant
within the window is one that a column can keep, since the column of the window holds an earlier one.
-/

namespace ContestPlatform

/-! ## The window of registration -/

/-- Registration is open from its first instant to its last one, both included. -/
theorem Contest.registrationAt_eq_open {c : Contest} {now : Instant} :
    c.registrationAt now = .open ↔ c.registrationStart ≤ now ∧ now ≤ c.registrationEnd := by
  unfold registrationAt
  by_cases hbegun : now < c.registrationStart
  · -- Before the first instant the last one does not count.
    rw [if_pos hbegun]
    have hearly : ¬ c.registrationStart ≤ now := Instant.not_le.mpr hbegun
    simp [hearly]
  · rw [if_neg hbegun]
    have hstarted : c.registrationStart ≤ now := Instant.not_lt.mp hbegun
    by_cases hover : now ≤ c.registrationEnd
    · simp [hstarted, hover]
    · simp [hover]

namespace Registration

open Service

section Demands

variable {κ : Type} (s : Stores κ) (contestId userId : Uuid)

/-- What is demanded of everybody: the contest exists, and its registration is open. -/
def windowDemands : List Demand :=
  let contest? := s.database.contest? contestId
  [⟨contest?.isSome, Contest.missing contestId⟩,
   ⟨contest?.any fun c => c.registrationStart ≤ s.now ∧ s.now ≤ c.registrationEnd,
    .registrationClosed contestId⟩]

/-- What is demanded of a user who registers: a profile, a cohort that is eligible, and that the user
    is not registered yet. -/
def entryDemands : List Demand :=
  let profile? := s.database.profile? userId
  let year := profile?.elim 0 UserProfile.currentYear
  windowDemands s contestId ++
    [⟨profile?.isSome, .notFound .user userId.text⟩,
     ⟨(s.database.contest? contestId).any (·.isEligible year), .invalidYear contestId year⟩,
     ⟨!s.database.isRegistered contestId userId, .alreadyRegistered contestId userId⟩]

/-- What is demanded of a user who withdraws: a registration. -/
def exitDemands : List Demand :=
  windowDemands s contestId ++
    [⟨s.database.isRegistered contestId userId, .notRegistered contestId userId⟩]

end Demands

end Registration

namespace Database

/-- Registration for every contest begins at an instant that its column can hold. -/
def WindowsFit (db : Database) : Prop :=
  ∀ row ∈ db.contests, Instant.leastStamp ≤ row.registrationStart - Instant.columnEpoch * 1000000

/-- The tables with one more registration. -/
def withRegistration (db : Database) (contestId userId : Uuid) (stamp : Stamp) : Database :=
  { db with registrations := db.registrations ++ [⟨contestId, userId, stamp⟩] }

/-- The tables without the registration of a user for a contest. -/
def withoutRegistration (db : Database) (contestId userId : Uuid) : Database :=
  { db with registrations := db.registrations.filter fun r =>
      !(r.contestId == contestId && r.userId == userId) }

section Calls

variable {db : Database} {contestId userId : Uuid}

/-- A registration is added unless it is there, if the contest and the user are known. -/
theorem answer_insertRegistration {registeredAt : Instant} {stamp : Stamp}
    (hstamp : registeredAt.stamp? = some stamp) (hcontest : db.hasContest contestId = true)
    (huser : db.hasUser userId = true) :
    db.answer (.insertRegistration contestId userId registeredAt) =
      (.ok (!db.isRegistered contestId userId),
        if db.isRegistered contestId userId then db
        else db.withRegistration contestId userId stamp) := by
  simp only [answer, insertRegistration, hstamp, hcontest, huser]
  cases db.isRegistered contestId userId <;> rfl

theorem answer_removeRegistration :
    db.answer (.removeRegistration contestId userId) =
      (.ok (db.isRegistered contestId userId), db.withoutRegistration contestId userId) := rfl

/-- To remove a registration that is not there changes nothing. -/
theorem withoutRegistration_of_absent (h : db.isRegistered contestId userId = false) :
    db.withoutRegistration contestId userId = db := by
  have heffect := effect_answer db (.removeRegistration contestId userId)
  rw [answer_removeRegistration, h] at heffect
  exact heffect.of_denies rfl

/-- A registration that was not there before is all that is removed with it. -/
theorem withoutRegistration_withRegistration (h : db.isRegistered contestId userId = false)
    (stamp : Stamp) :
    (db.withRegistration contestId userId stamp).withoutRegistration contestId userId = db := by
  refine Eq.trans ?_ (withoutRegistration_of_absent h)
  simp [withRegistration, withoutRegistration]

end Calls

end Database

namespace Registration

section Decision

variable {κ : Type} [ContentStore κ] (s : Stores κ) (contestId userId : Uuid)

theorem obtains_openContest :
    s.Obtains (windowDemands s contestId) (openContest contestId) fun contest =>
      s.database.contest? contestId = some contest ∧
        contest.registrationStart ≤ s.now ∧ s.now ≤ contest.registrationEnd := by
  refine .bind_one (Contest.obtains_find s contestId) fun contest hfound => .now ?_
  apply Stores.Decided.test
  · simp only [hfound, Option.any_some, Contest.registrationAt_eq_open]
  · intro hopen
    exact .nil ⟨contest, ⟨hfound, Contest.registrationAt_eq_open.mp hopen⟩, rfl⟩

/-- A user is registered if all demands are met, and then the pair is the only thing that is new. -/
theorem decided_register (hfit : s.database.WindowsFit) :
    s.Decided (entryDemands s contestId userId) (register contestId userId) fun outcome =>
      ∃ stamp, s.now.stamp? = some stamp ∧
        outcome = (.ok (), { s with
          database := s.database.withRegistration contestId userId stamp }) := by
  refine .bind (obtains_openContest s contestId) fun contest ⟨hcontest, hbegun, _⟩ => ?_
  refine .read rfl (.bind_one (.found _ _) fun profile hprofile => ?_)
  dsimp only
  rw [hcontest, hprofile]
  refine .turned_away (by simp) fun _ => .now ?_
  -- The contest and the profile were found, and the present instant can be kept.
  obtain ⟨row, hrow, rfl⟩ := Option.map_eq_some_iff.mp hcontest
  obtain ⟨stamp, hstamp⟩ := Instant.exists_stamp hbegun
    (hfit row (List.mem_of_find?_eq_some hrow))
  have hanswer := Database.answer_insertRegistration hstamp
    (Database.hasContest_of_contest? hcontest) (Database.hasUser_of_profile? hprofile)
  cases hknown : s.database.isRegistered contestId userId with
  | true =>
    rw [hknown] at hanswer
    exact .last (s.perform_of_answer hanswer) (fun _ => rfl) nofun
  | false =>
    rw [hknown] at hanswer
    exact .last (s.perform_of_answer hanswer) nofun fun _ => ⟨stamp, hstamp, rfl⟩

/-- A user withdraws if all demands are met, and then the pair is the only thing that is gone. -/
theorem decided_unregister :
    s.Decided (exitDemands s contestId userId) (unregister contestId userId) fun outcome =>
      outcome =
        (.ok (), { s with database := s.database.withoutRegistration contestId userId }) := by
  refine .bind (obtains_openContest s contestId) fun contest _ => ?_
  refine .last (s.perform_of_answer Database.answer_removeRegistration) (fun habsent => ?_)
    fun _ => rfl
  rw [Database.withoutRegistration_of_absent habsent]

end Decision

/-! ## What the demands say of the rows -/

/-- Registration for a contest is open, as its row says. -/
structure IsOpen {κ : Type} (s : Stores κ) (contestId : Uuid) (row : Database.ContestRow) :
    Prop where
  found : s.database.contests.find? (·.id == contestId) = some row
  begun : .ofStamp row.registrationStart ≤ s.now
  notOver : s.now ≤ .ofStamp row.registrationEnd

/-- A user may register for a contest: its registration is open, the cohort of the user is one of
    those that its row lists, and the user is not registered yet. -/
def MayEnter {κ : Type} (s : Stores κ) (contestId userId : Uuid) : Prop :=
  ∃ row profile, IsOpen s contestId row ∧ s.database.profile? userId = some profile ∧
    profile.currentYear ∈ IntList.read row.eligible ∧
    s.database.isRegistered contestId userId = false

section Rows

variable {κ : Type} {s : Stores κ} {contestId userId : Uuid}

theorem windowDemands_met :
    (∀ demand ∈ windowDemands s contestId, demand.met = true) ↔ ∃ row, IsOpen s contestId row := by
  simp only [windowDemands, List.forall_mem_cons, Database.contest?]
  cases hfound : s.database.contests.find? (·.id == contestId) with
  | none =>
    -- There is no row of which one could say that it is open.
    simp only [Option.map_none, Option.isSome_none, Bool.false_eq_true, false_and, false_iff]
    rintro ⟨row, h, -, -⟩
    simp [hfound] at h
  | some row =>
    simp only [Option.map_some, Option.isSome_some, Option.any_some, decide_eq_true_eq]
    constructor
    · rintro ⟨-, ⟨hbegun, hnotOver⟩, -⟩
      exact ⟨row, hfound, hbegun, hnotOver⟩
    · rintro ⟨other, hother, hbegun, hnotOver⟩
      obtain rfl : row = other := Option.some.inj (hfound.symm.trans hother)
      exact ⟨trivial, ⟨hbegun, hnotOver⟩, List.forall_mem_nil _⟩

/-- The cohorts that are eligible are those that are read from the text of the row. -/
theorem isEligible_contest {row : Database.ContestRow} {year : Int32} :
    row.contest.isEligible year = true ↔ year ∈ IntList.read row.eligible := by
  simp [Contest.isEligible, Database.ContestRow.contest]

theorem entryDemands_met :
    (∀ demand ∈ entryDemands s contestId userId, demand.met = true) ↔
      MayEnter s contestId userId := by
  unfold entryDemands
  rw [List.forall_mem_append, windowDemands_met]
  constructor
  · rintro ⟨⟨row, hopen⟩, h⟩
    simp only [List.forall_mem_cons] at h
    obtain ⟨hprofile, heligible, hnew, -⟩ := h
    obtain ⟨profile, hprofile⟩ := Option.isSome_iff_exists.mp hprofile
    rw [Database.contest?, hopen.found, hprofile] at heligible
    refine ⟨row, profile, hopen, hprofile, isEligible_contest.mp heligible, ?_⟩
    simpa using hnew
  · rintro ⟨row, profile, hopen, hprofile, heligible, hnew⟩
    refine ⟨⟨row, hopen⟩, ?_⟩
    simp only [List.forall_mem_cons, Database.contest?, hopen.found, hprofile, hnew]
    exact ⟨rfl, isEligible_contest.mpr heligible, rfl, List.forall_mem_nil _⟩

theorem exitDemands_met :
    (∀ demand ∈ exitDemands s contestId userId, demand.met = true) ↔
      (∃ row, IsOpen s contestId row) ∧ s.database.isRegistered contestId userId = true := by
  unfold exitDemands
  rw [List.forall_mem_append, windowDemands_met]
  simp

end Rows

/-! ## The decision -/

section Decision

variable {κ : Type} [ContentStore κ] (s : Stores κ) (contestId userId : Uuid)

/-- A registration that succeeds and is then withdrawn, whenever that is, leaves the tables as they
    were. -/
theorem unregister_after_register (hfit : s.database.WindowsFit) {t t' : Stores κ} {now : Instant}
    (hregister : s.perform (register contestId userId) = (.ok (), t))
    (hunregister : ({ t with now } : Stores κ).perform (unregister contestId userId) =
      (.ok (), t')) :
    t'.database = s.database := by
  obtain ⟨hmet, stamp, -, hentered⟩ := (decided_register s contestId userId hfit).of_ok hregister
  obtain ⟨-, hleft⟩ := (decided_unregister _ contestId userId).of_ok hunregister
  obtain ⟨-, -, -, -, -, hnew⟩ := entryDemands_met.mp hmet
  cases hentered
  cases hleft
  exact Database.withoutRegistration_withRegistration hnew stamp

/-- To register and to withdraw is decided by what the tables and the clock say. The first demand
    that is not met is the fault, and then nothing changes; otherwise the pair is added, or removed,
    and nothing else changes. -/
theorem registration_decided (hfit : s.database.WindowsFit) :
    s.Decided (entryDemands s contestId userId) (register contestId userId) (fun outcome =>
      ∃ stamp, s.now.stamp? = some stamp ∧ outcome =
        (.ok (), { s with database := s.database.withRegistration contestId userId stamp })) ∧
    s.Decided (exitDemands s contestId userId) (unregister contestId userId) (fun outcome =>
      outcome =
        (.ok (), { s with database := s.database.withoutRegistration contestId userId })) ∧
    ((s.perform (register contestId userId)).1 = .ok () ↔ MayEnter s contestId userId) ∧
    ((s.perform (unregister contestId userId)).1 = .ok () ↔
      (∃ row, IsOpen s contestId row) ∧ s.database.isRegistered contestId userId = true) ∧
    ∀ (t t' : Stores κ) (now : Instant),
      s.perform (register contestId userId) = (.ok (), t) →
      ({ t with now } : Stores κ).perform (unregister contestId userId) = (.ok (), t') →
        t'.database = s.database := by
  have hentry := decided_register s contestId userId hfit
  have hexit := decided_unregister s contestId userId
  refine ⟨hentry, hexit, ?_, ?_, fun t t' now => unregister_after_register s contestId userId hfit⟩
  · rw [← entryDemands_met]
    apply hentry.succeeds_iff
    rintro outcome ⟨stamp, -, rfl⟩
    rfl
  · rw [← exitDemands_met]
    apply hexit.succeeds_iff
    rintro outcome rfl
    rfl

end Decision

/-! ### The last instant of the window -/

/-- A contest of which registration ends at the tenth second, which is the present. Its cohorts are
    kept in a text of an older form. -/
def lastInstantStores : Stores Content.Memory where
  now := ⟨10, 0⟩
  ids := .initial
  database := { Database.empty with
    users := [{ (default : UserProfile) with id := .ofNat 7, currentYear := 2 }]
    contests := [{ (default : Database.ContestRow) with
      id := .ofNat 2, registrationEnd := 10000000, eligible := " \x7b 1,x, 2 \x7d" }] }
  content := .empty

/-- The user is registered at the last instant, and the pair is all that is new. -/
theorem registered_at_last_instant :
    lastInstantStores.database.WindowsFit ∧
      lastInstantStores.perform (register (.ofNat 2) (.ofNat 7)) =
        (.ok (), { lastInstantStores with
          database := { lastInstantStores.database with
            registrations := [⟨.ofNat 2, .ofNat 7, 10000000⟩] } }) := by
  have hfit : lastInstantStores.database.WindowsFit := by
    unfold Database.WindowsFit
    decide +kernel
  have hmet : Demand.firstUnmet? (entryDemands lastInstantStores (.ofNat 2) (.ofNat 7)) = none := by
    decide +kernel
  obtain ⟨hregister, -⟩ := registration_decided lastInstantStores (.ofNat 2) (.ofNat 7) hfit
  unfold Stores.Decided at hregister
  rw [hmet] at hregister
  obtain ⟨stamp, hstamp, hdone⟩ := hregister
  have hlast : lastInstantStores.now.stamp? = some 10000000 := by decide +kernel
  obtain rfl : (10000000 : Stamp) = stamp := Option.some.inj (hlast.symm.trans hstamp)
  exact ⟨hfit, hdone⟩

end Registration

end ContestPlatform
