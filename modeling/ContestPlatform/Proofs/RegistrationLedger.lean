import ContestPlatform.Proofs.Answers
import ContestPlatform.Proofs.Histories
import ContestPlatform.Proofs.WritingCalls
import Mathlib.Data.List.Chain
import Mathlib.Data.List.Nodup

/-!
# The ledger of registrations

A registration is one call that adds a row if there is none yet, a withdrawal is one call that
removes the row if there is one. What is read before, the contest and the profile, is never locked,
so any number of users can be on their way to that call. Still the calls that succeed for one pair
of a contest and a user alternate, and the row is there exactly after a registration. So of users
who try to register at the same time, while nothing else is in their way, one succeeds.
-/

namespace ContestPlatform.Registration

open Interleaving

/-! ## Marks -/

/-- An event at which a registration of the pair succeeded, or a withdrawal. -/
def mark? (contestId userId : Uuid) : Event → Option Bool
  | ⟨_, .register c u, .database (.insertRegistration ..), .ok true⟩ =>
    if c = contestId ∧ u = userId then some true else none
  | ⟨_, .unregister c u, .database (.removeRegistration ..), .ok true⟩ =>
    if c = contestId ∧ u = userId then some false else none
  | _ => none

/-- The marks of a log, the latest one last. -/
def marks (contestId userId : Uuid) (log : List Event) : List Bool :=
  log.filterMap (mark? contestId userId)

/-- The tasks that have left a mark. -/
def markers (contestId userId : Uuid) (log : List Event) : List Nat :=
  (log.filter fun e => (mark? contestId userId e).isSome).map Event.task

/-- The answer to a call by which a pair was added or removed. -/
def IsChange : Exchange → Prop
  | ⟨.database (.insertRegistration ..), .ok true⟩ => True
  | ⟨.database (.removeRegistration ..), .ok true⟩ => True
  | _ => False

section Marks

variable {contestId userId : Uuid} {log : List Event} {e : Event}

theorem markers_append_of_some {registered : Bool}
    (h : mark? contestId userId e = some registered) :
    markers contestId userId (log ++ [e]) = markers contestId userId log ++ [e.task] := by
  simp [markers, h]

theorem markers_append_of_none (h : mark? contestId userId e = none) :
    markers contestId userId (log ++ [e]) = markers contestId userId log := by
  simp [markers, h]

theorem mem_markers {i : Nat} : i ∈ markers contestId userId log ↔
    ∃ e ∈ log, e.task = i ∧ ∃ registered, mark? contestId userId e = some registered := by
  simp only [markers, List.mem_map, List.mem_filter, Option.isSome_iff_exists]
  constructor
  · rintro ⟨e, ⟨he, hmark⟩, htask⟩
    exact ⟨e, he, htask, hmark⟩
  · rintro ⟨e, he, htask, hmark⟩
    exact ⟨e, ⟨he, hmark⟩, htask⟩

theorem mem_marks {registered : Bool} : registered ∈ marks contestId userId log ↔
    ∃ e ∈ log, mark? contestId userId e = some registered :=
  List.mem_filterMap

theorem length_markers :
    (markers contestId userId log).length = (marks contestId userId log).length := by
  rw [markers, marks, List.length_map, ← List.countP_eq_length_filter,
    List.length_filterMap_eq_countP]

theorem mark?_eq_some {registered : Bool} (h : mark? contestId userId e = some registered) :
    IsChange e.exchange ∧ e.operation =
      if registered then .register contestId userId else .unregister contestId userId := by
  unfold mark? at h
  split at h
  · split_ifs at h with hpair
    obtain ⟨rfl, rfl⟩ := hpair
    cases h
    exact ⟨trivial, rfl⟩
  · split_ifs at h with hpair
    obtain ⟨rfl, rfl⟩ := hpair
    cases h
    exact ⟨trivial, rfl⟩
  · exact nomatch h

theorem IsChange.call {call : Call} {answer : call.Answer} (h : IsChange ⟨call, answer⟩) :
    (∃ c u registeredAt, call = .database (.insertRegistration c u registeredAt)) ∨
      ∃ c u, call = .database (.removeRegistration c u) := by
  unfold IsChange at h
  split at h
  case h_1 heq =>
    cases heq
    exact Or.inl ⟨_, _, _, rfl⟩
  case h_2 heq =>
    cases heq
    exact Or.inr ⟨_, _, rfl⟩
  case h_3 => exact h.elim

theorem call_of_mark? {i : Nat} {operation : Operation} {call : Call} {answer : call.Answer}
    (hask : operation.MayAsk call) {registered : Bool}
    (h : mark? contestId userId ⟨i, operation, call, answer⟩ = some registered) :
    (∃ registeredAt, call = .database (.insertRegistration contestId userId registeredAt)) ∨
      call = .database (.removeRegistration contestId userId) := by
  obtain ⟨hchange, hoperation⟩ := mark?_eq_some h
  -- The mark names the operation, and the operation makes calls for its own pair only.
  rcases hchange.call with ⟨c, u, registeredAt, rfl⟩ | ⟨c, u, rfl⟩
  · have hown := hask.insertRegistration.symm.trans hoperation
    cases registered with
    | false => exact nomatch hown
    | true =>
      cases hown
      exact Or.inl ⟨registeredAt, rfl⟩
  · have hown := hask.removeRegistration.symm.trans hoperation
    cases registered with
    | false =>
      cases hown
      exact Or.inr rfl
    | true => exact nomatch hown

end Marks

/-! ## One mark for each operation -/

theorem endsAfter_openCalls {contestId : Uuid} {next : Contest → StoreProgram (Except Fault Json)}
    (hnext : ∀ contest, EndsAfter IsChange (next contest)) :
    EndsAfter IsChange (openCalls contestId next) := by
  intro found
  refine ⟨fun h => h.elim, ?_⟩
  rcases found with fault | (_ | contest)
  · trivial
  · trivial
  intro now
  refine ⟨fun h => h.elim, ?_⟩
  dsimp only
  split
  · exact hnext contest
  · trivial

/-- An operation is done when it has changed a pair. -/
theorem endsAfter_run (operation : Operation) : EndsAfter IsChange operation.run.run := by
  cases operation with
  | register contestId userId =>
    rw [calls_register]
    refine endsAfter_openCalls fun contest known => ⟨fun h => h.elim, ?_⟩
    rcases known with fault | (_ | profile)
    · trivial
    · trivial
    dsimp only
    split
    · intro registeredAt
      refine ⟨fun h => h.elim, ?_⟩
      rintro (fault | (_ | _)) <;> exact ⟨fun _ => ⟨_, rfl⟩, trivial⟩
    · trivial
  | unregister contestId userId =>
    rw [calls_unregister]
    refine endsAfter_openCalls fun contest => ?_
    rintro (fault | (_ | _)) <;> exact ⟨fun _ => ⟨_, rfl⟩, trivial⟩
  | _ =>
    -- All others make no call that changes a pair.
    refine .of_asks (Operation.within_run _) fun call answer hask hchange => ?_
    rcases hchange.call with ⟨c, u, registeredAt, rfl⟩ | ⟨c, u, rfl⟩
    · exact nomatch hask.insertRegistration
    · exact nomatch hask.removeRegistration

/-! ## What the marks tell -/

variable {κ : Type}

/-- The marks of a pair tell whether it is registered. -/
structure Ledger (contestId userId : Uuid) (s : Shared κ) : Prop where
  balance : ((marks contestId userId s.log).count true : Int) -
    (marks contestId userId s.log).count false =
      if s.stores.database.isRegistered contestId userId then 1 else 0
  alternating : (false :: marks contestId userId s.log).IsChain (· ≠ ·)
  standing : (false :: marks contestId userId s.log).getLast? =
    some (s.stores.database.isRegistered contestId userId)
  /-- No operation leaves two marks. -/
  single : (markers contestId userId s.log).Nodup
  /-- Who finds the pair registered comes after somebody who registered it. -/
  preceded : ∀ e ∈ s.log, ∀ registeredAt,
    e.exchange = ⟨.database (.insertRegistration contestId userId registeredAt), Except.ok false⟩ →
      true ∈ marks contestId userId s.log

section Steps

variable {contestId userId : Uuid} {s : Shared κ} {i : Nat} {operation : Operation} {call : Call}
  {answer : call.Answer} {stores : Stores κ}

namespace Ledger

theorem of_absent {stores : Stores κ}
    (habsent : stores.database.isRegistered contestId userId = false) :
    Ledger contestId userId ⟨stores, []⟩ where
  balance := by
    rw [habsent]
    rfl
  alternating := List.isChain_singleton false
  standing := by
    rw [habsent]
    rfl
  single := List.nodup_nil
  preceded e he := absurd he List.not_mem_nil

theorem after_mark (h : Ledger contestId userId s) {registered : Bool}
    (hfirst : i ∉ markers contestId userId s.log)
    (hmark : mark? contestId userId ⟨i, operation, call, answer⟩ = some registered)
    (hbefore : s.stores.database.isRegistered contestId userId = !registered)
    (hafter : stores.database.isRegistered contestId userId = registered) :
    Ledger contestId userId (s.after ⟨i, operation, call, answer⟩ stores) := by
  have hmarks : marks contestId userId (s.log ++ [⟨i, operation, call, answer⟩]) =
      marks contestId userId s.log ++ [registered] := by
    rw [marks, filterMap_concat, hmark]
    rfl
  have hstanding := h.standing
  have hbalance := h.balance
  rw [hbefore] at hstanding hbalance
  constructor
  -- The balance goes up with a registration and down with a withdrawal, as the row comes and goes.
  · show ((marks contestId userId (s.log ++ [_])).count true : Int) -
      (marks contestId userId (s.log ++ [_])).count false = _
    rw [hmarks, Shared.after_stores, hafter, List.count_append, List.count_append]
    cases registered with
    | false =>
      simp at hbalance ⊢
      omega
    | true =>
      simp at hbalance ⊢
      omega
  · rw [Shared.after_log, hmarks, ← List.cons_append, List.isChain_append]
    refine ⟨h.alternating, List.isChain_singleton _, fun a ha b hb => ?_⟩
    -- The mark before was the other one.
    rw [hstanding] at ha
    cases ha
    cases hb
    exact Bool.not_not_eq.mpr rfl
  · rw [Shared.after_log, hmarks, ← List.cons_append, List.getLast?_concat, Shared.after_stores,
      hafter]
  · -- The task has left no mark before.
    rw [Shared.after_log, markers_append_of_some hmark]
    refine List.nodup_append.mpr ⟨h.single, List.nodup_singleton i, fun j hj k hk heq => ?_⟩
    obtain rfl : k = i := List.mem_singleton.mp hk
    exact hfirst (heq ▸ hj)
  · intro e he registeredAt heq
    rw [Shared.after_log, hmarks]
    rcases List.mem_append.mp he with hold | hnew
    · exact List.mem_append_left _ (h.preceded e hold registeredAt heq)
    · -- A call that finds the pair registered leaves no mark.
      rw [List.mem_singleton.mp hnew] at heq
      have hchange := (mark?_eq_some hmark).1
      rw [heq] at hchange
      exact hchange.elim

end Ledger

variable [ContentStore κ] {r : Regime}

/-- A call changes the pair and leaves a mark, or it does neither. -/
theorem mark?_of_answered (hans : Answered r s call answer stores) (hask : operation.MayAsk call)
    (hkept : operation ≠ .deleteContest contestId) :
    (∃ registered, mark? contestId userId ⟨i, operation, call, answer⟩ = some registered ∧
      s.stores.database.isRegistered contestId userId = !registered ∧
      stores.database.isRegistered contestId userId = registered) ∨
    (mark? contestId userId ⟨i, operation, call, answer⟩ = none ∧
      stores.database.isRegistered contestId userId =
        s.stores.database.isRegistered contestId userId) := by
  by_cases hown : (∃ registeredAt, call = .database (.insertRegistration contestId userId
      registeredAt)) ∨ call = .database (.removeRegistration contestId userId)
  · rcases hown with ⟨registeredAt, rfl⟩ | rfl
    · obtain rfl := hask.insertRegistration
      rcases answer with fault | (_ | _)
      · exact Or.inr ⟨rfl, by rw [hans.database_error.1]⟩
      · -- The pair was registered already, and still is.
        obtain ⟨hbefore, hafter⟩ := hans.effect.1.isRegistered_insert
        exact Or.inr ⟨rfl, hafter.trans hbefore.symm⟩
      · exact Or.inl ⟨true, if_pos ⟨rfl, rfl⟩, hans.effect.1.isRegistered_insert⟩
    · obtain rfl := hask.removeRegistration
      rcases answer with fault | (_ | _)
      · exact Or.inr ⟨rfl, by rw [hans.database_error.1]⟩
      · -- The pair was not registered, and still is not.
        obtain ⟨hbefore, hafter⟩ := hans.effect.1.isRegistered_remove
        exact Or.inr ⟨rfl, hafter.trans hbefore.symm⟩
      · exact Or.inl ⟨false, if_pos ⟨rfl, rfl⟩, hans.effect.1.isRegistered_remove⟩
  · -- No other call is about the pair, except that the contest could be removed.
    refine Or.inr ⟨Option.eq_none_iff_forall_ne_some.mpr fun registered hmark =>
      hown (call_of_mark? hask hmark), ?_⟩
    rw [not_or, not_exists] at hown
    cases call with
    | database call =>
      refine hans.effect.1.isRegistered_other (fun registeredAt heq => ?_) (fun heq => ?_)
        fun heq => ?_
      · exact hown.1 registeredAt (congrArg Call.database heq)
      · exact hown.2 (congrArg Call.database heq)
      · subst heq
        exact hkept hask.removeContest
    | now | freshId | content => rw [hans.database_of_other (fun _ => nofun)]

namespace Ledger

theorem after_none (h : Ledger contestId userId s)
    (hans : Answered r s call answer stores)
    (hmark : mark? contestId userId ⟨i, operation, call, answer⟩ = none)
    (hsame : stores.database.isRegistered contestId userId =
      s.stores.database.isRegistered contestId userId) :
    Ledger contestId userId (s.after ⟨i, operation, call, answer⟩ stores) := by
  have hmarks : marks contestId userId (s.log ++ [⟨i, operation, call, answer⟩]) =
      marks contestId userId s.log := by
    rw [marks, filterMap_concat, hmark, Option.toList_none, List.append_nil]
    rfl
  constructor
  · rw [Shared.after_log, hmarks, Shared.after_stores, hsame]
    exact h.balance
  · rw [Shared.after_log, hmarks]
    exact h.alternating
  · rw [Shared.after_log, hmarks, Shared.after_stores, hsame]
    exact h.standing
  · rw [Shared.after_log, markers_append_of_none hmark]
    exact h.single
  · intro e he registeredAt heq
    rw [Shared.after_log, hmarks]
    rcases List.mem_append.mp he with hold | hnew
    · exact h.preceded e hold registeredAt heq
    · rw [List.mem_singleton.mp hnew] at heq
      cases heq
      -- The pair was registered already, so the last mark says so.
      have hstanding := h.standing
      rw [hans.effect.1.isRegistered_insert.1] at hstanding
      have hmem := List.mem_of_getLast? hstanding
      exact (List.mem_cons.mp hmem).resolve_left nofun

/-- Every call of an operation that does not delete the contest keeps the ledger. -/
theorem after (h : Ledger contestId userId s)
    (hkept : operation ≠ .deleteContest contestId)
    {next : call.Answer → StoreProgram (Except Fault Json)}
    (hleads : Leads operation.run.run (exchangesOf s.log i) (.ask call next))
    (hans : Answered r s call answer stores) :
    Ledger contestId userId (s.after ⟨i, operation, call, answer⟩ stores) := by
  have hfirst : i ∉ markers contestId userId s.log := by
    intro hi
    -- A task that has left a mark is done, so it makes no more calls.
    obtain ⟨e, he, htask, registered, hmark⟩ := mem_markers.mp hi
    have hmem : e.exchange ∈ exchangesOf s.log i := mem_exchangesOf.mpr ⟨e, he, htask, rfl⟩
    obtain ⟨a, hdone⟩ :=
      (endsAfter_run operation).done_of_leads hleads hmem (mark?_eq_some hmark).1
    exact nomatch hdone
  rcases mark?_of_answered (i := i) hans hleads.mayAsk hkept with
    ⟨registered, hmark, hbefore, hafter⟩ | ⟨hmark, hsame⟩
  · exact h.after_mark hfirst hmark hbefore hafter
  · exact h.after_none hans hmark hsame

end Ledger

/-! ## Registrations at the same time -/

/-- The calls of a registration that gets as far as the database, with their answers. -/
def attempt (contestId userId : Uuid) (contest : Contest) (profile : UserProfile)
    (now registeredAt : Instant) (added : Bool) : List Exchange :=
  [⟨.database (.findContest contestId), Except.ok (some contest)⟩,
    ⟨.now, now⟩,
    ⟨.database (.findProfile userId), Except.ok (some profile)⟩,
    ⟨.now, registeredAt⟩,
    ⟨.database (.insertRegistration contestId userId registeredAt), Except.ok added⟩]

/-- What a registration gives back when the database has answered whether the row was added. -/
def outcome (contestId userId : Uuid) : Bool → Except Fault Json
  | true => .ok (Operation.nothing ())
  | false => .error (.alreadyRegistered contestId userId)

/-- Registrations of a pair run, and nothing but one another is in their way. -/
structure Unhindered (r : Regime) (stores : Stores κ) (P : Pool κ) (contestId userId : Uuid)
    (contest : Contest) (profile : UserProfile) : Prop where
  noWithdrawal : ¬ r.admits (.unregister contestId userId)
  noUpdate : ∀ terms, ¬ r.admits (.updateContest contestId terms)
  found : stores.database.contest? contestId = some contest
  known : stores.database.profile? userId = some profile
  eligible : contest.isEligible profile.currentYear = true
  begun : ∃ t ∈ P.tasks, t.operation = .register contestId userId
  returned : ∀ t ∈ P.tasks, t.operation = .register contestId userId →
    ∃ result, t.rest = some (.done result)
  works : ∀ e ∈ P.log, e.operation = .register contestId userId → ¬ Fails e.call e.answer
  /-- Whenever one of them looks at the clock, the window is open. -/
  isOpen : ∀ e ∈ P.log, e.operation = .register contestId userId →
    ∀ now, e.exchange = ⟨.now, now⟩ → contest.registrationAt now = .open

/-- What a registration is told by a call that does not fail. -/
def Told (contestId userId : Uuid) (contest : Contest) (profile : UserProfile) : Exchange → Prop
  | ⟨.database (.findContest id), answer⟩ => id = contestId → answer = .ok (some contest)
  | ⟨.database (.findProfile id), answer⟩ => id = userId → answer = .ok (some profile)
  | ⟨.database (.insertRegistration ..), answer⟩ => ∃ added, answer = .ok added
  | _ => True

section Told

variable {contest : Contest} {profile : UserProfile}

theorem told_of_answered (hans : Answered r s call answer stores)
    (hcontest : s.stores.database.contest? contestId = some contest)
    (hprofile : s.stores.database.profile? userId = some profile) (hworks : ¬ Fails call answer) :
    Told contestId userId contest profile ⟨call, answer⟩ := by
  unfold Told
  split
  case h_1 heq =>
    cases heq
    rintro rfl
    rw [hans.database_of_not_fails hworks, ← hcontest]
    rfl
  case h_2 heq =>
    cases heq
    rintro rfl
    rw [hans.database_of_not_fails hworks, ← hprofile]
    rfl
  case h_3 answer heq =>
    cases heq
    rcases answer with fault | added
    · exact absurd ⟨fault, rfl, hans.effect.1.kind_of_insertRegistration⟩ hworks
    · exact ⟨added, rfl⟩
  case h_4 => trivial

/-- A registration that is told so gets as far as the database. -/
theorem attempt_of_leads {exchanges : List Exchange} {result : Except Fault Json}
    (h : Leads (Operation.register contestId userId).run.run exchanges (.done result))
    (htold : ∀ x ∈ exchanges, Told contestId userId contest profile x)
    (hopen : ∀ now, ⟨.now, now⟩ ∈ exchanges → contest.registrationAt now = .open)
    (heligible : contest.isEligible profile.currentYear = true) :
    ∃ now registeredAt added,
      exchanges = attempt contestId userId contest profile now registeredAt added ∧
        result = outcome contestId userId added := by
  rw [calls_register] at h
  -- Each answer that it is told leads to the next of its five calls.
  obtain ⟨found, rest, rfl, hfind⟩ := h.of_ask
  obtain rfl : found = .ok (some contest) := htold _ List.mem_cons_self rfl
  have htold := (List.forall_mem_cons.mp htold).2
  obtain ⟨now, rest, rfl, hclock⟩ := hfind.of_ask
  rw [if_pos (hopen now (List.mem_cons_of_mem _ List.mem_cons_self))] at hclock
  have htold := (List.forall_mem_cons.mp htold).2
  obtain ⟨known, rest, rfl, hlook⟩ := hclock.of_ask
  obtain rfl : known = .ok (some profile) := htold _ List.mem_cons_self rfl
  dsimp only at hlook
  rw [if_pos heligible] at hlook
  have htold := (List.forall_mem_cons.mp htold).2
  obtain ⟨registeredAt, rest, rfl, hstamp⟩ := hlook.of_ask
  have htold := (List.forall_mem_cons.mp htold).2
  obtain ⟨answer, rest, rfl, hadd⟩ := hstamp.of_ask
  obtain ⟨added, rfl⟩ : ∃ added, answer = .ok added := htold _ List.mem_cons_self
  refine ⟨now, registeredAt, added, ?_⟩
  cases added with
  | false =>
    obtain ⟨rfl, hdone⟩ := hadd.of_done
    cases hdone
    exact ⟨rfl, rfl⟩
  | true =>
    obtain ⟨rfl, hdone⟩ := hadd.of_done
    cases hdone
    exact ⟨rfl, rfl⟩

/-- The contest and the profile are what they were, and all were told so. -/
structure Informed (contestId userId : Uuid) (contest : Contest) (profile : UserProfile)
    (s : Shared κ) : Prop where
  contest? : s.stores.database.contest? contestId = some contest
  profile? : s.stores.database.profile? userId = some profile
  told : ∀ e ∈ s.log, ¬ Fails e.call e.answer → Told contestId userId contest profile e.exchange

theorem Informed.after (h : Informed contestId userId contest profile s)
    (hkept : operation ≠ .deleteContest contestId)
    (hsame : ∀ terms, operation ≠ .updateContest contestId terms)
    (hask : operation.MayAsk call) (hans : Answered r s call answer stores) :
    Informed contestId userId contest profile (s.after ⟨i, operation, call, answer⟩ stores) := by
  have htables : stores.database.contest? contestId = some contest ∧
      stores.database.profile? userId = some profile := by
    cases call with
    | database call =>
      refine ⟨hans.effect.1.contest?_eq h.contest? (fun c heq hid => ?_) fun heq => ?_,
        (hans.effect.1.profile?_eq userId).trans h.profile?⟩
      · subst heq
        obtain ⟨terms, hoperation⟩ := hask.replaceContest
        exact hsame terms (hid ▸ hoperation)
      · subst heq
        exact hkept hask.removeContest
    | now | freshId | content =>
      rw [hans.database_of_other (fun _ => nofun)]
      exact ⟨h.contest?, h.profile?⟩
  refine ⟨htables.1, htables.2, fun e he hworks => ?_⟩
  rcases List.mem_append.mp he with hold | hnew
  · exact h.told e hold hworks
  · rw [List.mem_singleton.mp hnew] at hworks ⊢
    exact told_of_answered hans h.contest? h.profile? hworks

end Told

end Steps

/-! ## Any number of tasks -/

section Runs

variable [ContentStore κ] {r : Regime} {stores : Stores κ} {P : Pool κ} {contestId userId : Uuid}
  {contest : Contest} {profile : UserProfile}

theorem ledger_of_reachable (hkept : ¬ r.admits (.deleteContest contestId))
    (habsent : stores.database.isRegistered contestId userId = false)
    (hreach : Reachable r (Pool.initial stores) P) : Ledger contestId userId P.toShared := by
  refine hreach.invariant (Ledger.of_absent habsent) ?_
  intro s i operation call next answer stores' h hadmits hleads hans
  refine h.after ?_ hleads hans
  rintro rfl
  exact hkept hadmits

theorem mem_markers_of_added (hreach : Reachable r (Pool.initial stores) P) {i : Nat} {t : Task}
    (ht : P.tasks[i]? = some t) (hoperation : t.operation = .register contestId userId)
    {now registeredAt : Instant}
    (hexchanges : exchangesOf P.log i =
      attempt contestId userId contest profile now registeredAt true) :
    i ∈ markers contestId userId P.log := by
  have hlast : ⟨.database (.insertRegistration contestId userId registeredAt), Except.ok true⟩ ∈
      exchangesOf P.log i := by
    rw [hexchanges]
    simp [attempt]
  obtain ⟨e, he, rfl, hexchange⟩ := mem_exchangesOf.mp hlast
  refine mem_markers.mpr ⟨e, he, rfl, true, ?_⟩
  have hown := (hreach.traced.operation_eq he ht).trans hoperation
  obtain ⟨task, operation, call, answer⟩ := e
  cases hexchange
  obtain rfl : operation = .register contestId userId := hown
  exact if_pos ⟨rfl, rfl⟩

namespace Unhindered

variable (h : Unhindered r stores P contestId userId contest profile)
  (hreach : Reachable r (Pool.initial stores) P)

include h hreach

theorem informed (hkept : ¬ r.admits (.deleteContest contestId)) :
    Informed contestId userId contest profile P.toShared := by
  refine hreach.invariant ⟨h.found, h.known, fun e he => absurd he List.not_mem_nil⟩ ?_
  intro s i operation call next answer stores' hs hadmits hleads hans
  refine hs.after ?_ (fun terms => ?_) hleads.mayAsk hans
  · rintro rfl
    exact hkept hadmits
  · rintro rfl
    exact h.noUpdate terms hadmits

/-- Every registration of the pair gets as far as the database. -/
theorem exchangesOf_eq (hkept : ¬ r.admits (.deleteContest contestId)) {i : Nat} {t : Task}
    (ht : P.tasks[i]? = some t) (hoperation : t.operation = .register contestId userId) :
    ∃ now registeredAt added,
      exchangesOf P.log i = attempt contestId userId contest profile now registeredAt added ∧
        t.rest = some (.done (outcome contestId userId added)) := by
  have htraced := hreach.traced
  have hinformed := h.informed hreach hkept
  obtain ⟨result, hrest⟩ := h.returned t (List.mem_of_getElem? ht) hoperation
  obtain ⟨operation, rest⟩ := t
  obtain rfl : operation = .register contestId userId := hoperation
  obtain rfl : rest = some (.done result) := hrest
  have hown : ∀ e ∈ P.log, e.task = i → e.operation = .register contestId userId := by
    rintro e he rfl
    exact htraced.operation_eq he ht
  have htold : ∀ x ∈ exchangesOf P.log i, Told contestId userId contest profile x := by
    intro x hx
    obtain ⟨e, he, htask, rfl⟩ := mem_exchangesOf.mp hx
    exact hinformed.told e he (h.works e he (hown e he htask))
  have hopen : ∀ now, ⟨.now, now⟩ ∈ exchangesOf P.log i →
      contest.registrationAt now = .open := by
    intro now hnow
    obtain ⟨e, he, htask, heq⟩ := mem_exchangesOf.mp hnow
    exact h.isOpen e he (hown e he htask) now heq
  obtain ⟨now, registeredAt, added, hexchanges, rfl⟩ :=
    attempt_of_leads (htraced.leads ht) htold hopen h.eligible
  exact ⟨now, registeredAt, added, hexchanges, rfl⟩

theorem eq_true_of_mem_marks {registered : Bool}
    (hmem : registered ∈ marks contestId userId P.log) : registered = true := by
  obtain ⟨e, he, hmark⟩ := mem_marks.mp hmem
  obtain ⟨t, ht, hop⟩ := hreach.traced.owned e he
  have hadmits := hreach.traced.admitted t (List.mem_of_getElem? ht)
  rw [hop, (mark?_eq_some hmark).2] at hadmits
  cases registered with
  | false =>
    -- That would be the mark of somebody who withdraws.
    exact absurd hadmits h.noWithdrawal
  | true => rfl

theorem length_markers_le (hledger : Ledger contestId userId P.toShared) :
    (markers contestId userId P.log).length ≤ 1 := by
  rw [length_markers]
  have hall : ∀ registered ∈ marks contestId userId P.log, registered = true :=
    fun _ => h.eq_true_of_mem_marks hreach
  have halternating := hledger.alternating
  generalize marks contestId userId P.log = ms at hall halternating
  match ms with
  | [] => exact Nat.zero_le 1
  | [_] => exact Nat.le_refl 1
  | a :: b :: rest =>
    -- Marks alternate, so two of them cannot both be those of registrations.
    have hne : a ≠ b := (List.isChain_cons_cons.mp (List.isChain_cons_cons.mp halternating).2).1
    rw [hall a (by simp), hall b (by simp)] at hne
    exact absurd rfl hne

/-- A registration that has left a mark has succeeded. -/
theorem succeeded_of_mem_markers (hkept : ¬ r.admits (.deleteContest contestId)) {i : Nat}
    (hi : i ∈ markers contestId userId P.log) : P.tasks[i]? =
      some ⟨.register contestId userId, some (.done (outcome contestId userId true))⟩ := by
  obtain ⟨e, he, rfl, registered, hmark⟩ := mem_markers.mp hi
  obtain rfl := h.eq_true_of_mem_marks hreach (mem_marks.mpr ⟨e, he, hmark⟩)
  obtain ⟨hchange, hoperation⟩ := mark?_eq_some hmark
  obtain ⟨⟨operation, rest⟩, ht, hop⟩ := hreach.traced.owned e he
  obtain rfl : operation = .register contestId userId := hop.trans hoperation
  obtain ⟨now, registeredAt, added, hexchanges, hrest⟩ := h.exchangesOf_eq hreach hkept ht rfl
  obtain rfl : rest = some (.done (outcome contestId userId added)) := hrest
  -- Of its calls only the last one can have left the mark.
  have hmem : e.exchange ∈ exchangesOf P.log e.task := mem_exchangesOf.mpr ⟨e, he, rfl, rfl⟩
  rw [hexchanges] at hmem
  generalize e.exchange = x at hmem hchange
  cases added with
  | true => exact ht
  | false =>
    simp only [attempt, List.mem_cons, List.not_mem_nil, or_false] at hmem
    rcases hmem with rfl | rfl | rfl | rfl | rfl <;> exact hchange.elim

theorem exists_mem_markers (hkept : ¬ r.admits (.deleteContest contestId))
    (hledger : Ledger contestId userId P.toShared) :
    ∃ i, i ∈ markers contestId userId P.log := by
  obtain ⟨t, ht, hoperation⟩ := h.begun
  obtain ⟨i, hi⟩ := List.mem_iff_getElem?.mp ht
  obtain ⟨now, registeredAt, added, hexchanges, -⟩ := h.exchangesOf_eq hreach hkept hi hoperation
  cases added with
  | true => exact ⟨i, mem_markers_of_added hreach hi hoperation hexchanges⟩
  | false =>
    -- It found the pair registered, so somebody was faster.
    have hlast : ⟨.database (.insertRegistration contestId userId registeredAt),
        Except.ok false⟩ ∈ exchangesOf P.log i := by
      rw [hexchanges]
      simp [attempt]
    obtain ⟨e, he, -, hexchange⟩ := mem_exchangesOf.mp hlast
    obtain ⟨e', he', hmark⟩ := mem_marks.mp (hledger.preceded e he registeredAt hexchange)
    exact ⟨e'.task, mem_markers.mpr ⟨e', he', rfl, true, hmark⟩⟩

theorem markers_eq_singleton (hkept : ¬ r.admits (.deleteContest contestId))
    (hledger : Ledger contestId userId P.toShared) :
    ∃ i, markers contestId userId P.log = [i] := by
  obtain ⟨i, hi⟩ := h.exists_mem_markers hreach hkept hledger
  have hle := h.length_markers_le hreach hledger
  exact List.length_eq_one_iff.mp (Nat.le_antisymm hle (List.length_pos_of_mem hi))

end Unhindered

/-- Whatever else runs, as long as the contest is not deleted, registrations and withdrawals of a
    pair succeed in turn, and the pair is in the table exactly after a registration. So of any
    number of registrations that nothing else stands in the way of one succeeds, and all others
    find that the user is registered. -/
theorem registered_in_turn (hkept : ¬ r.admits (.deleteContest contestId))
    (habsent : stores.database.isRegistered contestId userId = false)
    (hreach : Reachable r (Pool.initial stores) P) :
    Ledger contestId userId P.toShared ∧
      ∀ contest profile, Unhindered r stores P contestId userId contest profile →
        ∃ i : Nat, P.tasks[i]? = some
            ⟨.register contestId userId, some (.done (.ok (Operation.nothing ())))⟩ ∧
          ∀ (j : Nat) t, P.tasks[j]? = some t → t.operation = .register contestId userId → j ≠ i →
            t.rest = some (.done (.error (.alreadyRegistered contestId userId))) := by
  have hledger := ledger_of_reachable hkept habsent hreach
  refine ⟨hledger, fun contest profile h => ?_⟩
  obtain ⟨i, hone⟩ := h.markers_eq_singleton hreach hkept hledger
  have hi : i ∈ markers contestId userId P.log := hone ▸ List.mem_singleton_self i
  refine ⟨i, h.succeeded_of_mem_markers hreach hkept hi, fun j t hj hoperation hne => ?_⟩
  obtain ⟨now, registeredAt, added, hexchanges, hrest⟩ :=
    h.exchangesOf_eq hreach hkept hj hoperation
  cases added with
  | false => exact hrest
  | true =>
    -- It would have left a mark as well, and there is only one.
    have hmem := mem_markers_of_added hreach hj hoperation hexchanges
    rw [hone, List.mem_singleton] at hmem
    exact absurd hmem hne

end Runs

/-! ## Two at the same time -/

/-- Only registrations run. -/
def registering : Regime where
  admits operation := ∃ contestId userId, operation = .register contestId userId
  mayFail _ := True
  mayCancel := False

/-- A contest for which the registration window is open at one instant. -/
def openRow : Database.ContestRow :=
  { (default : Database.ContestRow) with id := .ofNat 2, eligible := "0" }

def student : UserProfile :=
  { (default : UserProfile) with id := .ofNat 7 }

/-- Stores with a contest and a user. -/
def openStores : Stores Content.Memory where
  now := default
  ids := .initial
  database := { Database.empty with users := [student], contests := [openRow] }
  content := .empty

/-- Two registrations of a pair both read everything before one of them writes. -/
private theorem reachable_race :
    ∃ P : Pool Content.Memory, Reachable registering (Pool.initial openStores) P ∧
      Unhindered registering openStores P openRow.id student.id openRow.contest student := by
  refine ⟨_, .tail (.tail (.tail (.tail (.tail (.tail (.tail (.tail (.tail (.tail (.tail (.tail
    .refl
    (.begin_ _ (.register openRow.id student.id) ⟨_, _, rfl⟩))
    (.begin_ _ (.register openRow.id student.id) ⟨_, _, rfl⟩))
    (.call (i := 0) _ rfl (.database _ fun _ => trivial)))
    (.call (i := 1) _ rfl (.database _ fun _ => trivial)))
    (.call (i := 0) _ rfl (.clock default)))
    (.call (i := 1) _ rfl (.clock default)))
    (.call (i := 0) _ rfl (.database _ fun _ => trivial)))
    (.call (i := 1) _ rfl (.database _ fun _ => trivial)))
    (.call (i := 0) _ rfl (.clock default)))
    (.call (i := 1) _ rfl (.clock default)))
    (.call (i := 0) _ rfl (.database _ fun _ => trivial)))
    (.call (i := 1) _ rfl (.database _ fun _ => trivial)), ?_⟩
  constructor
  case noWithdrawal => exact fun ⟨_, _, h⟩ => nomatch h
  case noUpdate => exact fun _ ⟨_, _, h⟩ => nomatch h
  case found => rfl
  case known => rfl
  case eligible => decide +kernel
  case begun => exact ⟨_, List.mem_cons_self, rfl⟩
  case returned =>
    rintro t (_ | ⟨_, (_ | ⟨_, ⟨⟩⟩)⟩) - <;> exact ⟨_, rfl⟩
  case works =>
    intro e he _
    iterate 10
      rcases he with _ | ⟨_, he⟩
      · nofun
    exact nomatch he
  case isOpen =>
    intro e he _ now heq
    iterate 10
      rcases he with _ | ⟨_, he⟩
      · cases heq <;> rfl
    exact nomatch he

theorem registered_in_race :
    ∃ P : Pool Content.Memory, Reachable registering (Pool.initial openStores) P ∧
      Ledger openRow.id student.id P.toShared ∧
      ∃ i : Nat, P.tasks[i]? = some
        ⟨.register openRow.id student.id, some (.done (.ok (Operation.nothing ())))⟩ := by
  obtain ⟨P, hreach, hunhindered⟩ := reachable_race
  have hkept : ¬ registering.admits (.deleteContest openRow.id) := fun ⟨_, _, h⟩ => nomatch h
  obtain ⟨hledger, hone⟩ := registered_in_turn hkept rfl hreach
  obtain ⟨i, hi, -⟩ := hone openRow.contest student hunhindered
  exact ⟨P, hreach, hledger, i, hi⟩

end ContestPlatform.Registration
