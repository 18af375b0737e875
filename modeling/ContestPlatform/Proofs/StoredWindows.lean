import ContestPlatform.Proofs.Answers
import ContestPlatform.Proofs.Histories
import ContestPlatform.Proofs.InstantColumns
import ContestPlatform.Proofs.WritingCalls

/-!
# The windows of stored contests

Terms are accepted only if registration does not end before it starts and the contest starts before
it ends. But the columns keep whole microseconds, so what was accepted is not what is kept. A
contest that starts and ends in the same microsecond never runs, and a window that begins within a
leap second can end before it begins. `stored_windows` says of every contest in the table what is left of
its windows: if neither begins within a leap second they stay in order, and the contest runs at some
instant exactly if it starts and ends in different microseconds.
-/

namespace ContestPlatform

open Interleaving

/-! ## Windows that are in order -/

namespace ContestTerms

/-- Registration does not end before it starts, and the contest starts before it ends. -/
structure InOrder (t : ContestTerms) : Prop where
  registration : t.registrationStart ≤ t.registrationEnd
  running : t.start < t.finish

/-- Neither window begins within a leap second. -/
structure BeginsPlainly (t : ContestTerms) : Prop where
  registration : t.registrationStart.isLeapSecond = false
  running : t.start.isLeapSecond = false

theorem windowFlaw?_eq_none {t : ContestTerms} : t.windowFlaw? = none ↔ t.InOrder := by
  unfold windowFlaw?
  split
  case isTrue h =>
    -- Registration ends before it starts.
    exact ⟨nofun, fun horder => absurd horder.registration (Instant.not_le.mpr h)⟩
  case isFalse hregistration =>
    split
    case isTrue h =>
      exact ⟨nofun, fun horder => absurd horder.running (Instant.not_lt.mpr h)⟩
    case isFalse hrunning =>
      exact ⟨fun _ => ⟨Instant.not_lt.mp hregistration, Instant.not_le.mp hrunning⟩, fun _ => rfl⟩

end ContestTerms

/-- A contest runs at some instant exactly if it starts before it ends. -/
theorem Contest.exists_running_iff {c : Contest} :
    (∃ now, c.runningAt now = .running) ↔ c.start < c.finish := by
  constructor
  · rintro ⟨now, h⟩
    unfold runningAt at h
    split at h
    case isTrue => exact nomatch h
    case isFalse hstart =>
      split at h
      case isTrue hfinish =>
        -- The instant lies between the two.
        have hle := Instant.not_lt.mp hstart
        rw [Instant.le_iff] at hle
        rw [Instant.lt_iff] at hfinish ⊢
        omega
      case isFalse => exact nomatch h
  · intro h
    exact ⟨c.start, by rw [runningAt, if_neg (Instant.lt_irrefl _), if_pos h]⟩

/-! ## What the columns keep of a window -/

namespace Database.ContestRow

variable {c : Contest} {row : ContestRow}

/-- Windows that begin outside of leap seconds do not turn round. -/
theorem windows_le (h : ofContest? c = some row) (horder : c.InOrder) (hplain : c.BeginsPlainly) :
    row.contest.registrationStart ≤ row.contest.registrationEnd ∧
      row.contest.start ≤ row.contest.finish := by
  have hholds := holds_of_ofContest? h
  exact ⟨Instant.ofStamp_le.mpr (Instant.stamp_le hplain.registration horder.registration
      hholds.registrationStart hholds.registrationEnd),
    Instant.ofStamp_le.mpr (Instant.stamp_le hplain.running (Instant.le_of_lt horder.running)
      hholds.start hholds.finish)⟩

/-- But the window in which the contest runs can become empty. -/
theorem start_lt_finish_iff (h : ofContest? c = some row) (horder : c.InOrder)
    (hplain : c.BeginsPlainly) :
    row.contest.start < row.contest.finish ↔ c.start.stamp? ≠ c.finish.stamp? := by
  have hholds := holds_of_ofContest? h
  have hle : row.start ≤ row.finish :=
    Instant.stamp_le hplain.running (Instant.le_of_lt horder.running) hholds.start hholds.finish
  rw [hholds.start, hholds.finish, ne_eq, Option.some_inj]
  exact Instant.ofStamp_lt.trans ⟨Int.ne_of_lt, fun hne =>
    Int.lt_iff_le_and_ne.mpr ⟨hle, hne⟩⟩

end Database.ContestRow

/-- A row of the table of contests was there before a call, or is that of the contest that the call
    inserts or puts in the place of another one. -/
theorem Database.Effect.mem_contests {db db' : Database} {call : Database.Call}
    {answer : call.Answer} (h : Effect db call answer db') {row : ContestRow}
    (hrow : row ∈ db'.contests) :
    row ∈ db.contests ∨ ∃ c, (call = .insertContest c ∨ call = .replaceContest c) ∧
      ContestRow.ofContest? c = some row := by
  cases h with
  | @contestAdded c new hnew _ =>
    rcases List.mem_append.mp hrow with hold | hnew'
    · exact Or.inl hold
    · exact Or.inr ⟨c, Or.inl rfl, List.mem_singleton.mp hnew' ▸ hnew⟩
  | @contestReplaced c new hnew _ =>
    obtain ⟨old, hold, heq⟩ := List.mem_map.mp hrow
    split at heq
    · exact Or.inr ⟨c, Or.inr rfl, heq ▸ hnew⟩
    · exact Or.inl (heq ▸ hold)
  | contestRemoved _ _ => exact Or.inl (List.mem_filter.mp hrow).1
  | _ => exact Or.inl hrow

/-! ## Where the contests of the table come from -/

namespace Operation

/-- The terms that an operation hands in. -/
def terms? : Operation → Option ContestTerms
  | .createContest terms => some terms
  | .updateContest _ terms => some terms
  | _ => none

/-- A contest is written with the terms that were handed in, and only if their windows are in
    order. -/
def HandsIn (operation : Operation) : Call → Prop
  | .database (.insertContest c) | .database (.replaceContest c) =>
    operation.terms? = some c.toContestTerms ∧ c.InOrder
  | _ => True

theorem asks_handsIn (operation : Operation) : operation.run.run.Asks operation.HandsIn := by
  cases operation with
  | createContest terms =>
    rw [Contest.calls_create]
    cases hflaw : terms.windowFlaw? with
    | some flaw => trivial
    | none =>
      have horder := ContestTerms.windowFlaw?_eq_none.mp hflaw
      refine ⟨trivial, fun id => ⟨⟨rfl, horder⟩, ?_⟩⟩
      rintro (fault | _) <;> trivial
  | updateContest id terms =>
    rw [Contest.calls_update]
    cases hflaw : terms.windowFlaw? with
    | some flaw => trivial
    | none =>
      have horder := ContestTerms.windowFlaw?_eq_none.mp hflaw
      refine ⟨⟨rfl, horder⟩, ?_⟩
      rintro (fault | (_ | _)) <;> trivial
  | _ =>
    -- All others write no contest.
    refine (Operation.within_run _).mono fun call hask => ?_
    unfold HandsIn
    split
    · exact hask.elim nofun False.elim
    · exact hask.elim nofun False.elim
    · trivial

end Operation

/-- A row keeps what the columns keep of terms that were handed in with their windows in order. -/
def Handed {κ : Type} (s : Shared κ) (row : Database.ContestRow) : Prop :=
  ∃ e ∈ s.log, ∃ terms, e.operation.terms? = some terms ∧ terms.InOrder ∧
    Database.ContestRow.ofContest? (.ofTerms row.id terms) = some row

section Runs

variable {κ : Type} [ContentStore κ] {r : Regime} {stores : Stores κ} {P : Pool κ}

theorem handed_of_reachable (hstart : stores.database.contests = [])
    (hreach : Reachable r (Pool.initial stores) P) :
    ∀ row ∈ P.stores.database.contests, Handed P.toShared row := by
  refine hreach.invariant (I := fun s => ∀ row ∈ s.stores.database.contests, Handed s row)
    (fun row hrow => ?_) ?_
  · rw [hstart] at hrow
    exact absurd hrow List.not_mem_nil
  intro s i operation call next answer stores' hs _ hleads hans row hrow
  have hold : ∀ row, Handed s row → Handed (s.after ⟨i, operation, call, answer⟩ stores') row :=
    fun row ⟨e, he, h⟩ => ⟨e, List.mem_append_left _ he, h⟩
  cases call with
  | database call =>
    rcases hans.effect.1.mem_contests hrow with hrow | ⟨c, hcall, hnew⟩
    · exact hold row (hs row hrow)
    · -- The row was written by this call, so the operation handed its terms in.
      have hask : operation.HandsIn (.database call) :=
        (hleads.asks operation.asks_handsIn).1
      have hterms : operation.terms? = some c.toContestTerms ∧ c.InOrder := by
        rcases hcall with rfl | rfl <;> exact hask
      refine ⟨_, List.mem_append_right _ List.mem_cons_self, _, hterms.1, hterms.2, ?_⟩
      rw [Database.ContestRow.id_of_ofContest? hnew]
      exact hnew
  | now | freshId | content =>
    rw [Shared.after_stores, hans.database_of_other (fun _ => nofun)] at hrow
    exact hold row (hs row hrow)

/-- Every contest in the table was handed in with its windows in order. If neither begins within a
    leap second, registration does not end before it starts and the contest does not end before it
    starts, as they are read back; and the contest starts before it ends, and so runs at some
    instant, exactly if it was to start and to end in different microseconds. -/
theorem Contest.stored_windows (hstart : stores.database.contests = [])
    (hreach : Reachable r (Pool.initial stores) P) {row : Database.ContestRow}
    (hrow : row ∈ P.stores.database.contests) :
    ∃ t ∈ P.tasks, ∃ terms, t.operation.terms? = some terms ∧ terms.InOrder ∧
      (terms.BeginsPlainly →
        row.contest.registrationStart ≤ row.contest.registrationEnd ∧
        row.contest.start ≤ row.contest.finish ∧
        (row.contest.InOrder ↔ terms.start.stamp? ≠ terms.finish.stamp?) ∧
        ((∃ now, row.contest.runningAt now = .running) ↔
          terms.start.stamp? ≠ terms.finish.stamp?)) := by
  obtain ⟨e, he, terms, hterms, horder, hkept⟩ := handed_of_reachable hstart hreach row hrow
  obtain ⟨t, ht, hoperation⟩ := hreach.traced.owned e he
  refine ⟨t, List.mem_of_getElem? ht, terms, hoperation ▸ hterms, horder, fun hplain => ?_⟩
  obtain ⟨hregistration, hrunning⟩ := Database.ContestRow.windows_le hkept horder hplain
  have hiff := Database.ContestRow.start_lt_finish_iff hkept horder hplain
  refine ⟨hregistration, hrunning, ?_, exists_running_iff.trans hiff⟩
  exact ⟨fun h => hiff.mp h.running, fun h => ⟨hregistration, hiff.mpr h⟩⟩

end Runs

/-! ## Two contests -/

/-- Any operation may run, and nothing fails. -/
def undisturbed : Regime where
  admits _ := True
  mayFail _ := False
  mayCancel := False

/-- Stores with nothing in them. -/
def blankStores : Stores Content.Memory :=
  ⟨default, .initial, .empty, .empty⟩

/-- A contest of which the terms are accepted is in the table afterwards. -/
private theorem reachable_stored (terms : ContestTerms) {row : Database.ContestRow}
    (horder : terms.InOrder)
    (hrow : Database.ContestRow.ofContest? (.ofTerms (.ofNat 1) terms) = some row) :
    ∃ P : Pool Content.Memory, Reachable undisturbed (Pool.initial blankStores) P ∧
      row ∈ P.stores.database.contests ∧ ∃ rest, P.tasks = [⟨.createContest terms, rest⟩] := by
  have hcalls := Contest.calls_create terms
  simp only [ContestTerms.windowFlaw?_eq_none.mpr horder] at hcalls
  have hinsert : blankStores.database.answer (.insertContest (.ofTerms (.ofNat 1) terms)) =
      (.ok (), { Database.empty with contests := [row] }) := by
    simp only [Database.answer, Database.insertContest, hrow]
    rfl
  refine ⟨_, .tail (.tail (.tail .refl
    (.begin_ _ (.createContest terms) trivial))
    (.call (i := 0) _ (congrArg (fun p => some (Task.mk (.createContest terms) (some p))) hcalls)
      (.fresh (.ofNat 1) (not_drew_of_notMem List.not_mem_nil))))
    (.call (i := 0) _ rfl (.database _ ?_)), ?_, _, rfl⟩
  · rintro ⟨fault, h, -⟩
    cases (congrArg Prod.fst hinsert).symm.trans h
  · have hcontests := congrArg (fun result => result.2.contests) hinsert
    exact hcontests.symm ▸ List.mem_cons_self

/-- The first second of a day. -/
def dawn : Instant := ⟨1704067200, 0⟩

/-- A contest that runs for an hour. -/
def hourTerms : ContestTerms :=
  ⟨"Quiz", "", dawn, dawn, dawn, { dawn with seconds := dawn.seconds + 3600 }, [1]⟩

/-- A contest that runs for a hundred nanoseconds. -/
def briefTerms : ContestTerms :=
  ⟨"Quiz", "", dawn, dawn, { dawn with nanos := 100 }, { dawn with nanos := 200 }, [1]⟩

/-- A contest of an hour is kept as one that runs. -/
theorem Contest.hour_runs :
    ∃ P : Pool Content.Memory, Reachable undisturbed (Pool.initial blankStores) P ∧
      ∃ row ∈ P.stores.database.contests, ∃ now, row.contest.runningAt now = .running := by
  obtain ⟨P, hreach, hrow, rest, htasks⟩ :=
    reachable_stored hourTerms ⟨by decide, by decide⟩ rfl
  obtain ⟨t, ht, terms, hterms, -, hwindows⟩ := Contest.stored_windows rfl hreach hrow
  rw [htasks, List.mem_singleton] at ht
  subst ht
  cases hterms
  obtain ⟨-, -, -, hruns⟩ := hwindows ⟨rfl, rfl⟩
  exact ⟨P, hreach, _, hrow, hruns.mpr (by decide)⟩

/-- A contest of which the windows are in order is accepted, and never runs once it is kept. -/
theorem Contest.brief_never_runs :
    briefTerms.InOrder ∧ ∃ P : Pool Content.Memory,
      Reachable undisturbed (Pool.initial blankStores) P ∧
      ∃ row ∈ P.stores.database.contests, ¬ row.contest.start < row.contest.finish ∧
        ∀ now, row.contest.runningAt now ≠ .running := by
  have horder : briefTerms.InOrder := ⟨by decide, by decide⟩
  obtain ⟨P, hreach, hrow, -⟩ := reachable_stored briefTerms horder rfl
  refine ⟨horder, P, hreach, _, hrow, by decide, fun now h => ?_⟩
  exact absurd (Contest.exists_running_iff.mp ⟨now, h⟩) (by decide)

end ContestPlatform
