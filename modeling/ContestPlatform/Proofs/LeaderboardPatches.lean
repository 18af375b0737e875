import ContestPlatform.Proofs.Answers
import ContestPlatform.Proofs.ChangesInSequence
import ContestPlatform.Proofs.Histories
import ContestPlatform.Proofs.WritingCalls

/-!
# Patches of leaderboard entries

A patch is one call of the database, which writes the flags that the patch supplies and no others. So
whatever patches run at the same time, each flag of an entry is in the end what was supplied for it
last, and a flag that no patch supplied is as it was. Nothing else changes, and whether there is an
entry does not depend on what was patched before.
-/

namespace ContestPlatform

open Interleaving

/-! ## Flags -/

/-- The flags after patches, each as it was supplied last. -/
def LeaderboardFlags.after (f : LeaderboardFlags) (patches : List LeaderboardPatch) :
    LeaderboardFlags where
  hidden := (lastSupplied LeaderboardPatch.hidden patches).getD f.hidden
  disqualified := (lastSupplied LeaderboardPatch.disqualified patches).getD f.disqualified

theorem LeaderboardFlags.after_concat (f : LeaderboardFlags) (patches : List LeaderboardPatch)
    (patch : LeaderboardPatch) : f.after (patches ++ [patch]) = (f.after patches).apply patch := by
  simp only [after, apply, lastSupplied_concat, Option.getD_or]

/-- Two patches supply no flag in common. -/
def LeaderboardPatch.Apart (p p' : LeaderboardPatch) : Prop :=
  (p.hidden = none ∨ p'.hidden = none) ∧ (p.disqualified = none ∨ p'.disqualified = none)

theorem LeaderboardFlags.apply_comm (f : LeaderboardFlags) {p p' : LeaderboardPatch}
    (h : p.Apart p') : (f.apply p).apply p' = (f.apply p').apply p := by
  obtain ⟨hidden, disqualified⟩ := h
  simp only [apply, mk.injEq]
  constructor
  · rcases hidden with hnone | hnone <;> rw [hnone] <;> rfl
  · rcases disqualified with hnone | hnone <;> rw [hnone] <;> rfl

/-! ## Entries -/

namespace Database

/-- An entry after a patch of an entry. -/
def RankingRow.patched (contestId userId : Uuid) (patch : LeaderboardPatch) (row : RankingRow) :
    RankingRow :=
  if isEntryOf contestId userId row then { row with flags := row.flags.apply patch } else row

theorem isEntryOf_eq_true {contestId userId : Uuid} {row : RankingRow} :
    isEntryOf contestId userId row = true ↔ row.contestId = contestId ∧ row.userId = userId := by
  simp only [isEntryOf, Bool.and_eq_true, beq_iff_eq]

namespace RankingRow

variable {contestId userId c u : Uuid} {patch patch' : LeaderboardPatch} {row : RankingRow}

theorem patched_of_entry (h : isEntryOf contestId userId row = true) :
    row.patched contestId userId patch = { row with flags := row.flags.apply patch } :=
  if_pos h

theorem patched_of_other (h : ¬ isEntryOf contestId userId row = true) :
    row.patched contestId userId patch = row :=
  if_neg h

/-- An entry stays the entry that it is. -/
theorem isEntryOf_patched : isEntryOf c u (row.patched contestId userId patch) =
    isEntryOf c u row := by
  unfold patched
  split <;> rfl

/-- Patches of different entries or of different flags can change places. -/
theorem patched_comm (h : contestId ≠ c ∨ userId ≠ u ∨ patch.Apart patch') :
    (row.patched contestId userId patch).patched c u patch' =
      (row.patched c u patch').patched contestId userId patch := by
  by_cases hfirst : isEntryOf contestId userId row = true
  · by_cases hsecond : isEntryOf c u row = true
    · -- Both patch this entry, so they supply different flags.
      obtain ⟨hcontest, huser⟩ := isEntryOf_eq_true.mp hfirst
      obtain ⟨hcontest', huser'⟩ := isEntryOf_eq_true.mp hsecond
      have hapart : patch.Apart patch' :=
        (h.resolve_left fun hne => hne (hcontest.symm.trans hcontest')).resolve_left fun hne =>
          hne (huser.symm.trans huser')
      have hfirst' : isEntryOf contestId userId (row.patched c u patch') = true := by
        rw [isEntryOf_patched]
        exact hfirst
      have hsecond' : isEntryOf c u (row.patched contestId userId patch) = true := by
        rw [isEntryOf_patched]
        exact hsecond
      rw [patched_of_entry hfirst', patched_of_entry hsecond', patched_of_entry hfirst,
        patched_of_entry hsecond]
      exact congrArg (fun flags => { row with flags }) (row.flags.apply_comm hapart)
    · have hsecond' : ¬ isEntryOf c u (row.patched contestId userId patch) = true := by
        rw [isEntryOf_patched]
        exact hsecond
      rw [patched_of_other hsecond, patched_of_other hsecond']
  · have hfirst' : ¬ isEntryOf contestId userId (row.patched c u patch') = true := by
      rw [isEntryOf_patched]
      exact hfirst
    rw [patched_of_other hfirst, patched_of_other hfirst']

end RankingRow

theorem answer_patchRanking (db : Database) (contestId userId : Uuid) (patch : LeaderboardPatch) :
    db.answer (.patchRanking contestId userId patch) =
      (.ok (db.rankings.any (isEntryOf contestId userId)),
        { db with rankings := db.rankings.map (RankingRow.patched contestId userId patch) }) := rfl

/-- Entries change only with patches, and go only with their contests. -/
theorem Effect.rankings_eq {db db' : Database} {call : Call} {answer : call.Answer}
    (h : Effect db call answer db') (hpatch : ∀ c u patch, call ≠ .patchRanking c u patch)
    (hremove : ∀ id, call ≠ .removeContest id) : db'.rankings = db.rankings := by
  cases h with
  | entryPatched => exact absurd rfl (hpatch _ _ _)
  | contestRemoved => exact absurd rfl (hremove _)
  | _ => rfl

/-- A patch finds its entry whatever was patched before. -/
theorem any_isEntryOf_map {rows : List RankingRow} {f : RankingRow → RankingRow}
    (h : ∀ row c u, isEntryOf c u (f row) = isEntryOf c u row) (contestId userId : Uuid) :
    (rows.map f).any (isEntryOf contestId userId) = rows.any (isEntryOf contestId userId) := by
  rw [List.any_map]
  exact congrArg (List.any rows) (funext fun row => h row contestId userId)

end Database

namespace Leaderboard

/-! ## One patch -/

/-- What the patch of an entry gives. -/
def verdict (db : Database) (contestId userId : Uuid) (patch : LeaderboardPatch) :
    Except Fault Unit :=
  if patch.isEmpty then .error (.validation .nothingToUpdate)
  else if db.rankings.any (Database.isEntryOf contestId userId) then .ok ()
  else .error (missing contestId userId)

/-- The tables after the patch of an entry. -/
def tablesAfter (db : Database) (contestId userId : Uuid) (patch : LeaderboardPatch) : Database :=
  { db with rankings := db.rankings.map (Database.RankingRow.patched contestId userId patch) }

section Alone

variable {κ : Type} [ContentStore κ] (s : Stores κ) {contestId userId c u : Uuid}
  {patch patch' : LeaderboardPatch}

theorem tablesAfter_of_isEmpty (db : Database) (h : patch.isEmpty = true) :
    tablesAfter db contestId userId patch = db := by
  have hsame : db.rankings.map (Database.RankingRow.patched contestId userId patch) =
      db.rankings := by
    refine (List.map_congr_left fun row _ => ?_).trans (List.map_id _)
    unfold Database.RankingRow.patched
    rw [LeaderboardFlags.apply_of_isEmpty _ h]
    exact ite_self row
  rw [tablesAfter, hsame]

theorem perform_update :
    s.perform (update contestId userId patch) = (verdict s.database contestId userId patch,
      { s with database := tablesAfter s.database contestId userId patch }) := by
  unfold update verdict
  cases hempty : patch.isEmpty with
  | true =>
    rw [tablesAfter_of_isEmpty _ hempty]
    rfl
  | false =>
    change s.perform (Service.database (.patchRanking contestId userId patch) >>= fun found =>
      if found then pure () else throw (missing contestId userId)) = _
    rw [Stores.perform_bind_of_ok (s.perform_of_answer (Database.answer_patchRanking ..))]
    cases s.database.rankings.any (Database.isEntryOf contestId userId) <;> rfl

theorem verdict_tablesAfter (db : Database) :
    verdict (tablesAfter db c u patch') contestId userId patch = verdict db contestId userId patch := by
  unfold verdict tablesAfter
  rw [Database.any_isEntryOf_map fun _ _ _ => Database.RankingRow.isEntryOf_patched]

theorem tablesAfter_comm (db : Database) (h : contestId ≠ c ∨ userId ≠ u ∨ patch.Apart patch') :
    tablesAfter (tablesAfter db contestId userId patch) c u patch' =
      tablesAfter (tablesAfter db c u patch') contestId userId patch := by
  simp only [tablesAfter, List.map_map]
  exact congrArg (fun f => { db with rankings := db.rankings.map f })
    (funext fun _ => Database.RankingRow.patched_comm h)

/-- Patches of different entries or of different flags can change places: both give what they give
    alone, and the tables are the same in the end. -/
theorem perform_update_comm (h : contestId ≠ c ∨ userId ≠ u ∨ patch.Apart patch') :
    ∃ t, (s.perform (update contestId userId patch)).2.perform (update c u patch') =
        ((s.perform (update c u patch')).1, t) ∧
      (s.perform (update c u patch')).2.perform (update contestId userId patch) =
        ((s.perform (update contestId userId patch)).1, t) := by
  exists { s with
    database := tablesAfter (tablesAfter s.database contestId userId patch) c u patch' }
  constructor
  · simp only [perform_update, verdict_tablesAfter]
  · simp only [perform_update, verdict_tablesAfter, tablesAfter_comm s.database h]

end Alone

/-! ## Patches that run at the same time -/

/-- The patch of an entry that a call has made. -/
def patchOf? (contestId userId : Uuid) : Event → Option LeaderboardPatch
  | ⟨_, _, .database (.patchRanking c u patch), .ok _⟩ =>
    if contestId = c ∧ userId = u then some patch else none
  | _ => none

/-- An entry after the patches that a log tells of. -/
def entryAfter (log : List Event) (row : Database.RankingRow) : Database.RankingRow :=
  { row with flags := row.flags.after (log.filterMap (patchOf? row.contestId row.userId)) }

section Log

variable {log : List Event} {e : Event} {i : Nat} {operation : Operation} {c u : Uuid}
  {patch : LeaderboardPatch} {row : Database.RankingRow}

theorem isEntryOf_entryAfter :
    Database.isEntryOf c u (entryAfter log row) = Database.isEntryOf c u row := rfl

theorem entryAfter_concat_of_none (h : ∀ c u, patchOf? c u e = none) :
    entryAfter (log ++ [e]) row = entryAfter log row := by
  simp only [entryAfter, filterMap_concat, h, Option.toList_none, List.append_nil]

theorem entryAfter_concat_of_patch {found : Bool} :
    entryAfter (log ++ [⟨i, operation, .database (.patchRanking c u patch), .ok found⟩]) row =
      (entryAfter log row).patched c u patch := by
  have hrow : Database.isEntryOf c u (entryAfter log row) = true ↔
      row.contestId = c ∧ row.userId = u := Database.isEntryOf_eq_true
  by_cases hentry : row.contestId = c ∧ row.userId = u
  · rw [Database.RankingRow.patched_of_entry (hrow.mpr hentry)]
    simp only [entryAfter, filterMap_concat, patchOf?, if_pos hentry, Option.toList_some,
      LeaderboardFlags.after_concat]
  · rw [Database.RankingRow.patched_of_other (mt hrow.mp hentry)]
    simp only [entryAfter, filterMap_concat, patchOf?, if_neg hentry, Option.toList_none,
      List.append_nil]

end Log

section Pools

variable {κ : Type} {r : Regime} {stores : Stores κ}

/-- A patch writes its flags at once, or it fails. -/
theorem answered_patch [ContentStore κ] {s : Shared κ} {stores' : Stores κ} {c u : Uuid}
    {patch : LeaderboardPatch} {answer : Database.Call.Answer (.patchRanking c u patch)}
    (h : Answered r s (.database (.patchRanking c u patch)) answer stores') :
    (answer = .ok (s.stores.database.rankings.any (Database.isEntryOf c u)) ∧
      stores' = { s.stores with database := tablesAfter s.stores.database c u patch }) ∨
    (stores' = s.stores ∧ r.mayFail (.database (.patchRanking c u patch)) ∧
      ∃ fault, answer = .error fault ∧ fault.kind = .infrastructure) := by
  cases h with
  | database => exact Or.inl ⟨rfl, rfl⟩
  | trouble _ _ hfail hmay => exact Or.inr ⟨rfl, hmay, hfail⟩

/-- What a patch may be told: whether the entry was there at the start, unless the database fails. -/
def MayTell (r : Regime) (rows : List Database.RankingRow) (c u : Uuid) (patch : LeaderboardPatch)
    (answer : Database.Call.Answer (.patchRanking c u patch)) : Prop :=
  answer = .ok (rows.any (Database.isEntryOf c u)) ∨
    r.mayFail (.database (.patchRanking c u patch)) ∧
      ∃ fault, answer = .error fault ∧ fault.kind = .infrastructure

/-- What the patches of a run have done to entries, and what they were told. -/
structure Merged (r : Regime) (rows : List Database.RankingRow) (s : Shared κ) : Prop where
  rankings : s.stores.database.rankings = rows.map (entryAfter s.log)
  told : ∀ e ∈ s.log, ∀ c u patch answer,
    e.exchange = ⟨.database (.patchRanking c u patch), answer⟩ → MayTell r rows c u patch answer

theorem merged_initial : Merged r stores.database.rankings ⟨stores, []⟩ :=
  ⟨(List.map_id _).symm, fun _ he => absurd he List.not_mem_nil⟩

namespace Merged

variable {rows : List Database.RankingRow} {s : Shared κ} {stores' : Stores κ} {i : Nat}
  {operation : Operation}

/-- One more call. -/
theorem concat (h : Merged r rows s) {e : Event}
    (hrows : stores'.database.rankings = rows.map (entryAfter (s.log ++ [e])))
    (htold : ∀ c u patch answer, e.exchange = ⟨.database (.patchRanking c u patch), answer⟩ →
      MayTell r rows c u patch answer) : Merged r rows (s.after e stores') := by
  refine ⟨hrows, fun e' he c u patch answer hcall => ?_⟩
  rcases List.mem_append.mp he with hold | hnew
  · exact h.told e' hold c u patch answer hcall
  · rw [List.mem_singleton.mp hnew] at hcall
    exact htold c u patch answer hcall

/-- A call that patches nothing leaves the entries alone. -/
theorem other (h : Merged r rows s) {call : Call} {answer : call.Answer}
    (hrows : stores'.database.rankings = s.stores.database.rankings)
    (hpatch : ∀ c u patch, call ≠ .database (.patchRanking c u patch)) :
    Merged r rows (s.after ⟨i, operation, call, answer⟩ stores') := by
  have hnone : ∀ c u, patchOf? c u ⟨i, operation, call, answer⟩ = none := by
    intro c u
    unfold patchOf?
    split
    · next h => exact absurd (congrArg Event.call h) (hpatch _ _ _)
    · rfl
  apply h.concat
  · rw [hrows, h.rankings]
    exact List.map_congr_left fun row _ => (entryAfter_concat_of_none hnone).symm
  · intro c u patch answer hcall
    exact absurd (congrArg Exchange.call hcall) (hpatch c u patch)

variable [ContentStore κ]

/-- A patch is told of the entries of the start, which are there at any moment, with other flags. -/
theorem patch (h : Merged r rows s) {c u : Uuid} {patch : LeaderboardPatch}
    {answer : Database.Call.Answer (.patchRanking c u patch)}
    (hans : Answered r s (.database (.patchRanking c u patch)) answer stores') :
    Merged r rows (s.after ⟨i, operation, .database (.patchRanking c u patch), answer⟩ stores') := by
  rcases answered_patch hans with ⟨rfl, rfl⟩ | ⟨rfl, hmay, fault, rfl, hkind⟩
  · have hfound : s.stores.database.rankings.any (Database.isEntryOf c u) =
        rows.any (Database.isEntryOf c u) := by
      rw [h.rankings, Database.any_isEntryOf_map fun _ _ _ => isEntryOf_entryAfter]
    apply h.concat
    · simp only [tablesAfter, h.rankings, List.map_map]
      exact List.map_congr_left fun row _ => entryAfter_concat_of_patch.symm
    · rintro c' u' patch' answer' hcall
      cases hcall
      exact Or.inl (congrArg Except.ok hfound)
  · apply h.concat
    · rw [h.rankings]
      exact List.map_congr_left fun row _ => (entryAfter_concat_of_none fun _ _ => rfl).symm
    · rintro c' u' patch' answer' hcall
      cases hcall
      exact Or.inr ⟨hmay, fault, rfl, hkind⟩

end Merged

variable [ContentStore κ] {P : Pool κ}

theorem merged_of_reachable (hkept : ∀ id, ¬ r.admits (.deleteContest id))
    (hreach : Reachable r (Pool.initial stores) P) :
    Merged r stores.database.rankings P.toShared := by
  refine hreach.invariant (I := Merged r stores.database.rankings) merged_initial ?_
  intro s i operation call next answer stores' hs hadmits hleads hans
  by_cases hpatch : ∃ c u patch, call = .database (.patchRanking c u patch)
  · obtain ⟨c, u, patch, rfl⟩ := hpatch
    exact hs.patch hans
  have hother : ∀ c u patch, call ≠ .database (.patchRanking c u patch) :=
    fun c u patch h => hpatch ⟨c, u, patch, h⟩
  refine hs.other ?_ hother
  cases call with
  | database call =>
    refine hans.effect.1.rankings_eq (fun c u patch h => hother c u patch (congrArg _ h)) ?_
    rintro id rfl
    -- Only the removal of the contest takes entries away.
    rcases hleads.mayAsk with hreads | hwrites
    · exact nomatch hreads
    · cases operation with
      | deleteContest id' => exact hkept id' hadmits
      | _ => exact hwrites.elim
  | now | freshId | content => rw [hans.database_of_other fun _ => nofun]

/-- A patch is all that an update asks for. -/
theorem asks_update (c u : Uuid) (patch : LeaderboardPatch) :
    (Operation.updateLeaderboard c u patch).run.run.Asks
      fun call => patch.isEmpty = false ∧ call = .database (.patchRanking c u patch) := by
  rw [calls_update]
  cases hempty : patch.isEmpty with
  | true => trivial
  | false =>
    refine ⟨⟨rfl, rfl⟩, ?_⟩
    rintro (fault | (_ | _)) <;> trivial

/-- Patches change nothing but entries. -/
theorem stores_of_patches (honly : ∀ operation, r.admits operation →
      ∃ c u patch, operation = .updateLeaderboard c u patch)
    (hreach : Reachable r (Pool.initial stores) P) :
    P.stores = { stores with
      database := { stores.database with rankings := P.stores.database.rankings } } := by
  refine hreach.invariant (I := fun s => s.stores = { stores with
    database := { stores.database with rankings := s.stores.database.rankings } }) rfl ?_
  intro s i operation call next answer stores' hs hadmits hleads hans
  obtain ⟨c, u, patch, rfl⟩ := honly operation hadmits
  obtain ⟨-, rfl⟩ := (hleads.asks (asks_update c u patch)).1
  rcases answered_patch hans with ⟨-, rfl⟩ | ⟨rfl, -⟩
  · simp only [Shared.after_stores, tablesAfter]
    rw [hs]
  · exact hs

/-- What a patch gives in the end was told by its call. -/
theorem result_of_leads {c u : Uuid} {patch : LeaderboardPatch} {exchanges : List Exchange}
    {result : Except Fault Json}
    (h : Leads (Operation.updateLeaderboard c u patch).run.run exchanges (.done result)) :
    (patch.isEmpty = true ∧ result = .error (.validation .nothingToUpdate)) ∨
    (patch.isEmpty = false ∧ ∃ answer : Database.Call.Answer (.patchRanking c u patch),
      ⟨.database (.patchRanking c u patch), answer⟩ ∈ exchanges ∧
      result = answer.bind fun found =>
        if found then .ok (Operation.nothing ()) else .error (missing c u)) := by
  rw [calls_update] at h
  cases hempty : patch.isEmpty with
  | true =>
    rw [hempty] at h
    exact Or.inl ⟨rfl, Program.done.inj h.of_done.2⟩
  | false =>
    rw [hempty] at h
    obtain ⟨answer, rest, rfl, hlast⟩ := h.of_ask
    refine Or.inr ⟨rfl, answer, List.mem_cons_self, ?_⟩
    rcases answer with fault | (_ | _) <;> exact Program.done.inj hlast.of_done.2

/-- Any number of patches at the same time, while no contest is deleted. Each flag of each entry is
    in the end what was supplied for it last, in the order in which the patches were written, or what
    it was at the start; the entries and their scores are those of the start, and so is everything
    else if nothing but patches runs. An empty patch is refused, and another one is written and told
    whether there is its entry, unless the database fails. And patches of different entries or of
    different flags can change places. -/
theorem patches_merge (hkept : ∀ id, ¬ r.admits (.deleteContest id))
    (hreach : Reachable r (Pool.initial stores) P) :
    P.stores.database.rankings = stores.database.rankings.map (entryAfter P.log) ∧
    ((∀ operation, r.admits operation → ∃ c u patch, operation = .updateLeaderboard c u patch) →
      P.stores = { stores with
        database := { stores.database with rankings := P.stores.database.rankings } }) ∧
    (∀ i c u patch result,
      P.tasks[i]? = some ⟨.updateLeaderboard c u patch, some (.done result)⟩ →
      (result = (verdict stores.database c u patch).map Operation.nothing ∧
        (patch.isEmpty = false → ∃ e ∈ P.log, e.task = i ∧ patchOf? c u e = some patch)) ∨
      patch.isEmpty = false ∧ r.mayFail (.database (.patchRanking c u patch)) ∧
        ∃ fault, result = .error fault ∧ fault.kind = .infrastructure) ∧
    ∀ (s : Stores κ) (c u c' u' : Uuid) (patch patch' : LeaderboardPatch),
      c ≠ c' ∨ u ≠ u' ∨ patch.Apart patch' →
      ∃ t, (s.perform (update c u patch)).2.perform (update c' u' patch') =
          ((s.perform (update c' u' patch')).1, t) ∧
        (s.perform (update c' u' patch')).2.perform (update c u patch) =
          ((s.perform (update c u patch)).1, t) := by
  have hmerged := merged_of_reachable hkept hreach
  refine ⟨hmerged.rankings, fun honly => stores_of_patches honly hreach, ?_, ?_⟩
  · intro i c u patch result hi
    rcases result_of_leads (hreach.traced.leads hi) with
      ⟨hempty, rfl⟩ | ⟨hempty, answer, hanswer, rfl⟩
    · left
      simp [verdict, hempty, Except.map]
    obtain ⟨e, he, htask, hcall⟩ := mem_exchangesOf.mp hanswer
    rcases hmerged.told e he c u patch answer hcall with rfl | ⟨hmay, fault, rfl, hkind⟩
    · refine Or.inl ⟨?_, fun _ => ⟨e, he, htask, ?_⟩⟩
      · simp only [verdict, hempty, Bool.false_eq_true, if_false]
        cases stores.database.rankings.any (Database.isEntryOf c u) <;> rfl
      · obtain ⟨task, operation, call, answer⟩ := e
        cases hcall
        simp [patchOf?]
    · exact Or.inr ⟨hempty, hmay, fault, rfl, hkind⟩
  · intro s c u c' u' patch patch' h
    exact perform_update_comm s h

end Pools

/-! ### Two patches of one entry -/

/-- Nothing but patches, and the database works. -/
def patching : Regime where
  admits operation := ∃ c u patch, operation = .updateLeaderboard c u patch
  mayFail _ := False
  mayCancel := False

/-- An entry that is disqualified. -/
def disqualifiedEntry : Database.RankingRow :=
  ⟨.ofNat 1, .ofNat 2, 40, ⟨false, true⟩⟩

/-- Stores with the entry. -/
def entryStores : Stores Content.Memory :=
  ⟨default, .initial, { Database.empty with rankings := [disqualifiedEntry] }, .empty⟩

/-- One patch hides the entry and another one makes it count again. Both are begun before either is
    written, and both stay. -/
theorem patches_of_one_entry : ∃ P : Pool Content.Memory,
    Reachable patching (Pool.initial entryStores) P ∧
    P.stores = { entryStores with database := { entryStores.database with
      rankings := [{ disqualifiedEntry with flags := ⟨true, false⟩ }] } } ∧
    ∃ e ∈ P.log, e.task = 0 ∧
      patchOf? disqualifiedEntry.contestId disqualifiedEntry.userId e = some ⟨some true, none⟩ := by
  have hreach : ∃ P : Pool Content.Memory, Reachable patching (Pool.initial entryStores) P ∧
      P.tasks = [⟨.updateLeaderboard (.ofNat 1) (.ofNat 2) ⟨some true, none⟩,
          some (.done (.ok (Operation.nothing ())))⟩,
        ⟨.updateLeaderboard (.ofNat 1) (.ofNat 2) ⟨none, some false⟩,
          some (.done (.ok (Operation.nothing ())))⟩] ∧
      P.log = [⟨1, .updateLeaderboard (.ofNat 1) (.ofNat 2) ⟨none, some false⟩,
          .database (.patchRanking (.ofNat 1) (.ofNat 2) ⟨none, some false⟩), .ok true⟩,
        ⟨0, .updateLeaderboard (.ofNat 1) (.ofNat 2) ⟨some true, none⟩,
          .database (.patchRanking (.ofNat 1) (.ofNat 2) ⟨some true, none⟩), .ok true⟩] := by
    refine ⟨_, .tail (.tail (.tail (.tail .refl
      (.begin_ _ (.updateLeaderboard (.ofNat 1) (.ofNat 2) ⟨some true, none⟩) ⟨_, _, _, rfl⟩))
      (.begin_ _ (.updateLeaderboard (.ofNat 1) (.ofNat 2) ⟨none, some false⟩) ⟨_, _, _, rfl⟩))
      (.call (i := 1) _ rfl (.database _ ?_)))
      (.call (i := 0) _ rfl (.database _ ?_)), rfl, rfl⟩
    all_goals
      rintro ⟨fault, h, -⟩
      exact nomatch h
  obtain ⟨P, hreach, htasks, hlog⟩ := hreach
  have hkept : ∀ id, ¬ patching.admits (.deleteContest id) := by
    rintro id ⟨c, u, patch, h⟩
    exact nomatch h
  obtain ⟨hrankings, hrest, hresult, -⟩ := patches_merge hkept hreach
  refine ⟨P, hreach, ?_, ?_⟩
  · rw [hrest fun _ h => h, hrankings, hlog]
    rfl
  · rcases hresult 0 _ _ _ _ (by rw [htasks]; rfl) with ⟨-, hwritten⟩ | ⟨-, hmay, -⟩
    · exact hwritten rfl
    · exact hmay.elim

end Leaderboard

end ContestPlatform
