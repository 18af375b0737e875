import ContestPlatform.Proofs.Demands
import ContestPlatform.Proofs.FrozenLedger
import ContestPlatform.Proofs.Pages
import ContestPlatform.Proofs.UniqueKeys
import Mathlib.Tactic.TFAE

/-!
# Who reads the registrations

Four operations tell of the registrations for a contest: one asks for a single registration, one
shows it with the contest, one lists all of them with the profiles of the registrants, and one lets
users through who are registered. They put different questions to the tables and answer alike, since
a pair of a contest and a user is kept once and nobody is registered without a profile.
-/

namespace ContestPlatform

open Interleaving

/-! ## The list of the registrations -/

/-- Who is registered, and since when, as the table says. -/
def Database.RegistrationRow.record (r : Database.RegistrationRow) : Uuid × Instant :=
  (r.userId, .ofStamp r.registeredAt)

/-- Who is registered, and since when, as the list says. -/
def RegistrationEntry.record (e : RegistrationEntry) : Uuid × Instant :=
  (e.profile.id, e.registeredAt)

namespace Database

/-- A registration is listed by the instant at which it was made. -/
def RegistrationRow.key (r : RegistrationRow) : Stamp × Uuid :=
  (r.registeredAt, r.userId)

theorem registeredEarlier_eq_true (a b : RegistrationRow) :
    registeredEarlier a b = true ↔ Newer RegistrationRow.key b a :=
  decide_eq_true_iff

section Entries

variable {db : Database} {contestId userId : Uuid}

theorem mem_ledger {g : RegistrationRow} :
    g ∈ db.ledger contestId ↔ g ∈ db.registrations ∧ g.contestId = contestId := by
  rw [ledger, List.mem_filter, beq_iff_eq]

/-- Earlier registrations come first. -/
theorem registrationsOf_sorted :
    (db.registrationsOf contestId).Pairwise (·.registeredAt ≤ ·.registeredAt) := by
  have hsorted := pairwise_mergeSort_of_iff registeredEarlier_eq_true
    (fun _ _ _ hab hbc => hbc.trans hab) (fun a b => newer_total _ b a) (db.ledger contestId)
  -- The rows are sorted before the profiles are looked up, which keeps the order.
  refine hsorted.filterMap _ fun a b hab e he e' he' => ?_
  obtain ⟨profile, -, rfl⟩ := Option.map_eq_some_iff.mp he
  obtain ⟨profile', -, rfl⟩ := Option.map_eq_some_iff.mp he'
  rw [Instant.ofStamp_le]
  rcases hab with hlt | ⟨heq, -⟩
  · exact Int.le_of_lt hlt
  · exact Int.le_of_eq heq

/-- The profile of an entry is the present one of the registrant. -/
theorem profile?_of_mem_registrationsOf {e : RegistrationEntry}
    (he : e ∈ db.registrationsOf contestId) : db.profile? e.profile.id = some e.profile := by
  obtain ⟨g, -, hentry⟩ := List.mem_filterMap.mp he
  obtain ⟨profile, hprofile, rfl⟩ := Option.map_eq_some_iff.mp hentry
  rw [id_of_profile? hprofile]
  exact hprofile

variable (h : db.Constrained) (contestId userId)

include h

/-- Every registration is listed, whoever the registrant is. -/
theorem Constrained.registrationsOf_perm :
    ((db.registrationsOf contestId).map RegistrationEntry.record).Perm
      ((db.ledger contestId).map RegistrationRow.record) := by
  have hsorted := List.mergeSort_perm (db.ledger contestId) registeredEarlier
  have hentries : (db.registrationsOf contestId).map RegistrationEntry.record =
      ((db.ledger contestId).mergeSort registeredEarlier).map RegistrationRow.record := by
    rw [registrationsOf, List.map_filterMap, ← List.filterMap_eq_map]
    refine List.filterMap_congr fun g hg => ?_
    -- The registrant has a profile, with the identifier that the registration names.
    have hregistered := (mem_ledger.mp (hsorted.mem_iff.mp hg)).1
    obtain ⟨profile, hprofile⟩ := exists_profile? (h.registrants g hregistered)
    simp [hprofile, RegistrationEntry.record, RegistrationRow.record, id_of_profile? hprofile]
  rw [hentries]
  exact hsorted.map _

/-- Those who are listed are those who are registered. -/
theorem Constrained.users_registrationsOf_perm :
    ((db.registrationsOf contestId).map (·.profile.id)).Perm
      ((db.ledger contestId).map (·.userId)) := by
  have hrecords := (h.registrationsOf_perm contestId).map Prod.fst
  rw [List.map_map, List.map_map] at hrecords
  exact hrecords

/-- A user is registered for a contest at most once. -/
theorem Constrained.ledger_uniqueBy_userId :
    UniqueBy RegistrationRow.userId (db.ledger contestId) := by
  have hpairs : UniqueBy RegistrationRow.pair (db.ledger contestId) := h.registrations.filter _
  -- All pairs have the same contest, so they differ in their users.
  have hsame : (db.ledger contestId).map RegistrationRow.pair =
      ((db.ledger contestId).map RegistrationRow.userId).map (contestId, ·) := by
    rw [List.map_map]
    refine List.map_congr_left fun g hg => ?_
    rw [RegistrationRow.pair, (mem_ledger.mp hg).2]
    rfl
  unfold UniqueBy at hpairs
  rw [hsame] at hpairs
  exact hpairs.of_map _

/-- So a user is listed at most once. -/
theorem Constrained.registrationsOf_uniqueBy_userId :
    UniqueBy (·.profile.id) (db.registrationsOf contestId) :=
  (h.users_registrationsOf_perm contestId).nodup_iff.mpr (h.ledger_uniqueBy_userId contestId)

theorem Constrained.exists_entry_iff :
    (∃ e ∈ db.registrationsOf contestId, e.profile.id = userId) ↔
      db.isRegistered contestId userId = true := by
  have hlisted := (h.users_registrationsOf_perm contestId).mem_iff (a := userId)
  rw [List.mem_map] at hlisted
  rw [hlisted, List.mem_map, isRegistered, List.any_eq_true]
  simp only [mem_ledger, and_assoc, Bool.and_eq_true, beq_iff_eq]

end Entries

end Database

/-! ## The answers of the readers -/

section Readers

variable {κ : Type} [ContentStore κ] (s : Stores κ) {contestId userId : Uuid} {contest : Contest}

theorem Registration.perform_isRegistered (contestId userId : Uuid) :
    s.perform (isRegistered contestId userId) =
      (.ok (s.database.isRegistered contestId userId), s) := rfl

theorem Registration.perform_list (h : s.database.hasContest contestId = true) :
    s.perform (list contestId) = (.ok (s.database.registrationsOf contestId), s) := by
  have hexists : s.database.answer (.contestExists contestId) = (.ok true, s.database) := by
    rw [Database.answer, h]
  rw [list, s.perform_read hexists]
  rfl

theorem Contest.perform_get (h : s.database.contest? contestId = some contest)
    (viewer : Option Uuid) :
    s.perform (get contestId viewer) =
      (.ok (contest.detailAt s.now (viewer.map (s.database.isRegistered contestId))), s) := by
  have hfound : s.database.answer (.findContest contestId) = (.ok (some contest), s.database) := by
    rw [Database.answer, h]
  have hfind : s.perform (find contestId) = (.ok contest, s) := by
    rw [find, s.perform_read hfound, s.perform_found_some]
  rw [get, Stores.perform_bind_of_ok hfind]
  cases viewer <;> rfl

/-- Who is registered is not told otherwise, and everybody else is. -/
theorem Contest.not_turned_away_iff (h : s.database.contest? contestId = some contest) :
    (∀ c u, (s.perform (checkVisibility contestId userId)).1 ≠ .error (.userNotRegistered c u)) ↔
      s.database.isRegistered contestId userId = true := by
  rw [perform_checkVisibility, h]
  cases s.database.isRegistered contestId userId with
  | false => simp
  | true => by_cases hupcoming : contest.runningAt s.now = .upcoming <;> simp [hupcoming]

/-- Who is registered is let through once the contest is not upcoming any more. -/
theorem Contest.let_through_iff (h : s.database.contest? contestId = some contest) :
    (∃ found, s.perform (checkVisibility contestId userId) = (.ok found, s)) ↔
      s.database.isRegistered contestId userId = true ∧ contest.runningAt s.now ≠ .upcoming := by
  rw [perform_checkVisibility, h]
  cases s.database.isRegistered contestId userId with
  | false => simp
  | true => by_cases hupcoming : contest.runningAt s.now = .upcoming <;> simp [hupcoming]

end Readers

/-! ## The readers agree -/

section Runs

variable {κ : Type} [ContentStore κ] {r : Regime} {stores : Stores κ} {P : Pool κ}

/-- At any moment and at any instant, the readers of the registrations for a contest agree about
    every user. The list is in the order of the registrations, has each of them once, and shows every
    registrant with the present profile. -/
theorem ledger_readers_agree (hstart : stores.database.Constrained)
    (hreach : OpenReachable r Database.Elsewhere (Pool.initial stores) P) {contestId : Uuid}
    (hcontest : P.stores.database.hasContest contestId = true) (userId : Uuid) (now : Instant) :
    let s : Stores κ := { P.stores with now }
    ∃ registered detail entries,
      s.perform (Registration.isRegistered contestId userId) = (.ok registered, s) ∧
      s.perform (Contest.get contestId (some userId)) = (.ok detail, s) ∧
      s.perform (Registration.list contestId) = (.ok entries, s) ∧
      List.TFAE [
        registered = true,
        detail.isRegistered = some true,
        ∃ e, entries.filter (·.profile.id == userId) = [e],
        entries.filter (·.profile.id == userId) ≠ [],
        ∀ c u, (s.perform (Contest.checkVisibility contestId userId)).1 ≠
          .error (.userNotRegistered c u)] ∧
      ((∃ contest, s.perform (Contest.checkVisibility contestId userId) = (.ok contest, s)) ↔
        detail.isRegistered = some true ∧ detail.running ≠ .upcoming) ∧
      entries.Pairwise (·.registeredAt ≤ ·.registeredAt) ∧
      (entries.map RegistrationEntry.record).Perm
        ((s.database.ledger contestId).map Database.RegistrationRow.record) ∧
      ∀ e ∈ entries, s.database.profile? e.profile.id = some e.profile := by
  intro s
  have hs : s.database.Constrained := hstart.lasts hreach
  obtain ⟨contest, hfound⟩ := Database.exists_contest? hcontest
  have hunique := hs.registrationsOf_uniqueBy_userId contestId
  have hlisted := hs.exists_entry_iff contestId userId
  have hshown : some (s.database.isRegistered contestId userId) = some true ↔
      s.database.isRegistered contestId userId = true := Option.some_inj
  refine ⟨_, _, _, Registration.perform_isRegistered s contestId userId,
    Contest.perform_get s hfound (some userId), Registration.perform_list s hcontest, ?_, ?_,
    Database.registrationsOf_sorted, hs.registrationsOf_perm contestId,
    fun e he => Database.profile?_of_mem_registrationsOf he⟩
  · -- All of them are compared with the single question.
    tfae_have 1 ↔ 2 := hshown.symm
    tfae_have 1 → 3 := by
      intro hregistered
      obtain ⟨e, he, rfl⟩ := hlisted.mpr hregistered
      exact ⟨e, hunique.filter_eq_singleton he⟩
    tfae_have 3 → 4 := by
      rintro ⟨e, he⟩
      rw [he]
      exact List.cons_ne_nil e []
    tfae_have 4 → 1 := by
      intro hsome
      obtain ⟨e, he⟩ := List.exists_mem_of_ne_nil _ hsome
      obtain ⟨hmem, hid⟩ := List.mem_filter.mp he
      exact hlisted.mp ⟨e, hmem, beq_iff_eq.mp hid⟩
    tfae_have 5 ↔ 1 := Contest.not_turned_away_iff s hfound
    tfae_finish
  · exact (Contest.let_through_iff s hfound).trans (and_congr_left' hshown.symm)

end Runs

/-! ### A registrant whose profile changes -/

/-- Stores with a contest that is open for the cohort of the only user. -/
def openStores : Stores Content.Memory where
  now := ⟨1, 0⟩
  ids := .initial
  database := { Database.empty with
    users := [{ (default : UserProfile) with id := .ofNat 7, currentYear := 1 }]
    contests := [earlyRow] }
  content := .empty

theorem constrained_openStores : openStores.database.Constrained where
  users := List.nodup_singleton _
  contests := List.nodup_singleton _
  registrations := .nil
  problems := .nil
  submissions := .nil
  registrants _ hg := absurd hg List.not_mem_nil

/-- The user registers, and comes to be in the next cohort. -/
private theorem reachable_with_new_profile :
    ∃ P : Pool Content.Memory,
      OpenReachable Submission.unrestrained Database.Elsewhere (Pool.initial openStores) P ∧
      P.stores.database.hasContest (.ofNat 2) = true ∧
      P.stores.database.isRegistered (.ofNat 2) (.ofNat 7) = true ∧
      P.stores.database.users.map (·.currentYear) = [2] := by
  have hsteps := Relation.ReflTransGen.refl
    (r := OpenStep Submission.unrestrained Database.Elsewhere) (a := Pool.initial openStores)
  replace hsteps := hsteps.tail (.step (.begin_ _ (.register (.ofNat 2) (.ofNat 7)) trivial))
  replace hsteps := hsteps.tail (.step (.call (i := 0) _ rfl (.database _ fun _ => trivial)))
  replace hsteps := hsteps.tail (.step (.call (i := 0) _ rfl (.clock ⟨5, 0⟩)))
  replace hsteps := hsteps.tail (.step (.call (i := 0) _ rfl (.database _ fun _ => trivial)))
  replace hsteps := hsteps.tail (.step (.call (i := 0) _ rfl (.clock ⟨6, 0⟩)))
  replace hsteps := hsteps.tail (.step (.call (i := 0) _ rfl (.database _ fun _ => trivial)))
  replace hsteps := hsteps.tail (.outside _ (.userChanged
    { (default : UserProfile) with id := .ofNat 7, currentYear := 2 }))
  exact ⟨_, hsteps, rfl, rfl, rfl⟩

/-- The contest is shown to the user as one for which the user is registered, and the list has one
    entry for the user, with the new profile. -/
theorem readers_agree_with_new_profile :
    ∃ P : Pool Content.Memory,
      OpenReachable Submission.unrestrained Database.Elsewhere (Pool.initial openStores) P ∧
      ∃ detail entries,
        P.stores.perform (Contest.get (.ofNat 2) (some (.ofNat 7))) = (.ok detail, P.stores) ∧
        P.stores.perform (Registration.list (.ofNat 2)) = (.ok entries, P.stores) ∧
        detail.isRegistered = some true ∧
        ∃ e, entries.filter (·.profile.id == .ofNat 7) = [e] ∧ e.profile.currentYear = 2 := by
  obtain ⟨P, hreach, hcontest, hregistered, hyear⟩ := reachable_with_new_profile
  refine ⟨P, hreach, ?_⟩
  obtain ⟨registered, detail, entries, hasked, hget, hlist, hagree, -, -, -, hpresent⟩ :=
    ledger_readers_agree constrained_openStores hreach hcontest (.ofNat 7) P.stores.now
  have hyes : registered = true := by
    have hanswer := congrArg Prod.fst hasked
    rw [Registration.perform_isRegistered] at hanswer
    exact (Except.ok.inj hanswer).symm.trans hregistered
  obtain ⟨e, he⟩ := (hagree.out 0 2).mp hyes
  refine ⟨detail, entries, hget, hlist, (hagree.out 0 1).mp hyes, e, he, ?_⟩
  -- The profile in the entry is the only one that there is.
  have hentry : e ∈ entries := (List.mem_filter.mp (he ▸ List.mem_singleton_self e)).1
  have huser := List.mem_of_find?_eq_some (hpresent e hentry)
  have hcohort := List.mem_map_of_mem (f := UserProfile.currentYear) huser
  rwa [hyear, List.mem_singleton] at hcohort

end ContestPlatform
