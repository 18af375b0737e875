import ContestPlatform.Proofs.IntactStores
import ContestPlatform.Proofs.StoredWindows
import ContestPlatform.Proofs.Triples

/-!
# The faults of operations

An operation that runs alone on intact stores leaves them intact, whatever it ends with. The stores
fail it for one reason only: what it hands in cannot be kept. This takes a clock that a column can
keep and an identifier under which nothing is kept yet; all that is said of faults is said under a
premise `p`, so that what is said of the stores holds without it.
-/

namespace ContestPlatform

open Assertion (Ends)

/-! ## What can be kept -/

/-- The table of contests can keep the terms. -/
structure ContestTerms.Storable (t : ContestTerms) : Prop where
  name : Database.isStorable t.name = true
  description : Database.isStorable t.description = true
  registrationStart : t.registrationStart.stamp?.isSome = true
  registrationEnd : t.registrationEnd.stamp?.isSome = true
  start : t.start.stamp?.isSome = true
  finish : t.finish.stamp?.isSome = true

/-- Terms that have a row can be kept. -/
theorem ContestTerms.storable_of_row {t : ContestTerms} {id : Uuid} {row : Database.ContestRow}
    (h : Database.ContestRow.ofContest? (.ofTerms id t) = some row) : t.Storable := by
  have hholds := Database.ContestRow.holds_of_ofContest? h
  obtain ⟨hname, hdescription⟩ := Bool.and_eq_true_iff.mp hholds.storable
  exact ⟨hname, hdescription, Option.isSome_of_mem hholds.registrationStart,
    Option.isSome_of_mem hholds.registrationEnd, Option.isSome_of_mem hholds.start,
    Option.isSome_of_mem hholds.finish⟩

theorem ContestTerms.Storable.exists_row {t : ContestTerms} (h : t.Storable) (id : Uuid) :
    ∃ row, Database.ContestRow.ofContest? (.ofTerms id t) = some row := by
  obtain ⟨registrationStart, hregistrationStart⟩ := Option.isSome_iff_exists.mp h.registrationStart
  obtain ⟨registrationEnd, hregistrationEnd⟩ := Option.isSome_iff_exists.mp h.registrationEnd
  obtain ⟨start, hstart⟩ := Option.isSome_iff_exists.mp h.start
  obtain ⟨finish, hfinish⟩ := Option.isSome_iff_exists.mp h.finish
  simp [Database.ContestRow.ofContest?, Contest.ofTerms, h.name, h.description,
    hregistrationStart, hregistrationEnd, hstart, hfinish, guard]

variable {κ : Type} [LawfulContentStore κ] {p : Prop}

/-- Intact stores. If `p` holds, their clock can be kept, and nothing is kept yet under the
    identifier that is drawn next. -/
structure Stores.Ready (p : Prop) (s : Stores κ) : Prop where
  intact : s.Intact none
  clock : p → s.now.stamp?.isSome = true
  fresh : p → s.Unused s.ids.draw.1

/-- A fault that leaves the stores intact, and that they are not to blame for if `p` holds. -/
def Fault.Harmless (p : Prop) (fault : Fault) : Assertion κ := fun s =>
  s.Intact none ∧ (p → fault.kind ≠ .infrastructure)

/-- What an operation does that runs from stores of which `A` holds: it leaves them intact, and if it
    fails, they are not to blame. -/
abbrev Spares {α : Type} (p : Prop) (A : Assertion κ) (x : Service α) : Prop :=
  Triple A x (fun _ => Stores.Intact none) (Fault.Harmless p)

/-! ## Single calls -/

section Calls

variable {α : Type} {A : Assertion κ} (hA : ∀ s, A s → s.Intact none)

include hA

theorem Triple.refuse {fault : Fault} {Q : α → Assertion κ}
    (hkind : (fault.kind == .infrastructure) = false) :
    Triple A (throw fault : Service α) Q (Fault.Harmless p) :=
  Triple.throw fun s hs => ⟨hA s hs, fun _ => beq_eq_false_iff_ne.mp hkind⟩

/-- Reading does not fail. -/
theorem Triple.reads {call : Database.Call} {E : Fault → Assertion κ} (hreads : call.reads = true) :
    Triple A (Service.database call)
      (fun result s => A s ∧ (s.database.answer call).1 = .ok result) E := by
  refine Triple.read hreads fun s hs => ?_
  obtain ⟨result, hresult⟩ := (hA s hs).reads hreads
  rw [hresult]
  exact ⟨hs, hresult⟩

theorem Triple.spares_read {call : Database.Call} (hreads : call.reads = true) :
    Spares p A (Service.database call) :=
  Triple.post (Triple.reads hA hreads) fun _ s h => hA s h.1

/-- What is looked up is there, or the caller is told. -/
theorem Triple.lookup {call : Database.Call} {f : call.Result → Option α} {fault : Fault}
    (hreads : call.reads = true) (hkind : (fault.kind == .infrastructure) = false) :
    Triple A (do Service.found fault (f (← Service.database call)))
      (fun a s => A s ∧ ∃ result, (s.database.answer call).1 = .ok result ∧ f result = some a)
      (Fault.Harmless p) := by
  refine Triple.bind (Triple.reads hA hreads) fun result => ?_
  refine Triple.post (Triple.found fun s hs => ?_) fun a s hs => ?_
  · exact ⟨hA s hs.1, fun _ => beq_eq_false_iff_ne.mp hkind⟩
  · exact ⟨hs.1.1, result, hs.1.2, hs.2⟩

/-- A call that writes no record leaves the stores intact. -/
theorem Triple.writes {call : Database.Call} {Q : call.Result → Assertion κ}
    (hrecord : call.writesRecord = false)
    (hfault : p → ∀ s, A s → ∀ fault, (s.database.answer call).1 = .error fault →
      fault.kind ≠ .infrastructure)
    (hresult : ∀ (s : Stores κ) result db, Database.Effect s.database call (.ok result) db →
      Stores.Intact none { s with database := db } → Q result { s with database := db }) :
    Triple A (Service.database call) Q (Fault.Harmless p) := by
  refine Triple.database fun s hs answer db hanswer => ?_
  have heffect := Database.effect_answer s.database call
  rw [hanswer] at heffect
  have hintact := (hA s hs).effect heffect hrecord
  cases answer with
  | ok result => exact hresult s result db heffect hintact
  | error fault => exact ⟨hintact, fun hp => hfault hp s hs fault (by rw [hanswer])⟩

/-- A call that tells whether there was something to change, which the caller is told of if not. -/
theorem Triple.changes {call : Database.Call} {f : call.Result → Bool} {a : α} {fault : Fault}
    (hrecord : call.writesRecord = false)
    (hfault : p → ∀ s, A s → ∀ fault, (s.database.answer call).1 = .error fault →
      fault.kind ≠ .infrastructure)
    (hkind : (fault.kind == .infrastructure) = false) :
    Spares p A (do if f (← Service.database call) then return a else throw fault) := by
  refine Triple.bind (Triple.writes hA hrecord hfault fun _ _ _ _ h => h) fun result => ?_
  cases f result with
  | true => exact Triple.pure fun _ h => h
  | false => exact Triple.refuse (fun _ h => h) hkind

end Calls

/-! ## Contests -/

namespace Contest

variable {A : Assertion κ} {id userId : Uuid} {terms : ContestTerms}

theorem triple_find (hA : ∀ s, A s → s.Intact none) :
    Triple A (find id) (fun _ s => A s ∧ s.database.hasContest id = true) (Fault.Harmless p) := by
  refine Triple.post (Triple.lookup hA rfl rfl) ?_
  rintro contest s ⟨hs, found, hanswer, rfl⟩
  exact ⟨hs, Database.hasContest_of_contest? (Except.ok.inj hanswer)⟩

theorem triple_checkWindows (hA : ∀ s, A s → s.Intact none) :
    Triple A (checkWindows terms) (fun _ => A) (Fault.Harmless p) := by
  unfold checkWindows
  cases terms.windowFlaw? with
  | none => exact Triple.pure fun _ h => h
  | some flaw => exact Triple.refuse hA rfl

/-- A contest is created if its terms can be kept. -/
theorem spares_create (hkept : p → terms.Storable) :
    Spares (κ := κ) p (Stores.Ready p) (create terms) := by
  refine Triple.bind (triple_checkWindows fun _ => Stores.Ready.intact) fun _ => ?_
  refine Triple.bind (Q := fun id s => s.Intact none ∧ (p → s.database.hasContest id = false))
    (Triple.freshId fun s hs => ?_) fun id => ?_
  · exact ⟨hs.intact.kept ⟨rfl, rfl⟩, fun hp => (hs.fresh hp).contest⟩
  · refine Triple.bind (Triple.writes (fun _ => And.left) rfl ?_ fun _ _ _ _ h => h) fun _ => ?_
    · intro hp s hs fault hfault
      obtain ⟨row, hrow⟩ := (hkept hp).exists_row id
      have hnew : s.database.hasContest (ofTerms id terms).id = false := hs.2 hp
      simp only [Database.answer, Database.insertContest, hrow, hnew] at hfault
      cases hfault
    · exact Triple.pure fun _ h => h

/-- Otherwise it is not, although its windows are in order. -/
theorem fails_create (hwindows : terms.windowFlaw? = none) (hunkept : ¬ terms.Storable) :
    Triple A (create terms) (fun _ _ => False)
      fun fault _ => fault = .database .unstorable := by
  have hcheck : checkWindows terms = pure () := by
    unfold checkWindows
    rw [hwindows]
  unfold create
  rw [hcheck, pure_bind]
  refine Triple.bind (Q := fun _ _ => True) (Triple.freshId fun _ _ => trivial) fun id => ?_
  refine Triple.bind (Q := fun _ _ => False) (Triple.database fun s _ answer db hanswer => ?_)
    fun _ => fun _ h => h.elim
  have hrow : Database.ContestRow.ofContest? (ofTerms id terms) = none := by
    cases hrow : Database.ContestRow.ofContest? (ofTerms id terms) with
    | none => rfl
    | some row => exact absurd (ContestTerms.storable_of_row hrow) hunkept
  simp only [Database.answer, Database.insertContest, hrow, Database.changed] at hanswer
  cases hanswer
  rfl

theorem spares_update (hkept : p → terms.Storable) :
    Spares (κ := κ) p (Stores.Ready p) (update id terms) := by
  refine Triple.bind (triple_checkWindows fun _ => Stores.Ready.intact) fun _ => ?_
  refine Triple.changes (fun _ => Stores.Ready.intact) rfl ?_ rfl
  intro hp s _ fault hfault
  obtain ⟨row, hrow⟩ := (hkept hp).exists_row id
  simp only [Database.answer, Database.replaceContest, hrow] at hfault
  cases hfault

theorem spares_delete : Spares (κ := κ) p (Stores.Ready p) (delete id) := by
  refine Triple.changes (fun _ => Stores.Ready.intact) rfl ?_ rfl
  intro _ s _ fault hfault
  -- Only problems stand in the way.
  simp only [Database.answer, Database.removeContest] at hfault
  split_ifs at hfault with hfound hused
  · cases hfault
  · cases hfault
    rintro ⟨⟩
  · cases hfault

theorem spares_get (hA : ∀ s, A s → s.Intact none) (viewer : Option Uuid) :
    Spares p A (get id viewer) := by
  refine Triple.bind (triple_find hA) fun contest => ?_
  have hend : ∀ isRegistered : Option Bool, Spares p A (do
      return contest.detailAt (← Service.now) isRegistered) :=
    fun isRegistered => Triple.bind Triple.now fun now => Triple.pure fun s h => hA s h.1
  cases viewer with
  | none => exact (hend none).pre fun _ h => h.1
  | some userId =>
    refine Triple.bind (Q := fun _ => A) (Triple.map ?_) hend
    exact Triple.weaken (Triple.reads hA rfl) (fun _ h => h.1) (fun _ _ h => h.1) fun _ _ h => h

theorem triple_details (contests : List Contest) :
    Triple A (details contests) (fun _ => A) (Fault.Harmless p) := by
  induction contests with
  | nil => exact Triple.pure fun _ h => h
  | cons contest rest ih =>
    refine Triple.bind Triple.now fun now => ?_
    refine Triple.bind (Triple.pre ih fun _ h => h.1) fun details => ?_
    exact Triple.pure fun _ h => h

theorem spares_list (hA : ∀ s, A s → s.Intact none) (page : UInt32) : Spares p A (list page) := by
  refine Triple.bind (Triple.reads hA rfl) fun contests => ?_
  exact ((triple_details contests).pre fun s h => h.1).post fun _ => hA

/-- Who sees the problems of a contest is registered for it. -/
theorem triple_checkVisibility (hA : ∀ s, A s → s.Intact none) :
    Triple A (checkVisibility id userId)
      (fun _ s => A s ∧ s.database.isRegistered id userId = true) (Fault.Harmless p) := by
  refine Triple.bind (triple_find hA) fun contest => ?_
  refine Triple.bind (Triple.reads (fun s h => hA s h.1) rfl) fun registered => ?_
  cases registered with
  | false => exact Triple.refuse (fun s h => hA s h.1.1) rfl
  | true =>
    have hend : Triple (fun s => A s ∧ s.database.isRegistered id userId = true) (do
          if contest.runningAt (← Service.now) = .upcoming then throw (.contestNotRunning id)
          return contest)
        (fun _ s => A s ∧ s.database.isRegistered id userId = true) (Fault.Harmless p) := by
      refine Triple.bind Triple.now fun now => ?_
      split
      · exact Triple.refuse (fun s h => hA s h.1.1) rfl
      · exact Triple.pure fun _ h => h.1
    exact hend.pre fun s h => ⟨h.1.1, Except.ok.inj h.2⟩

end Contest

/-! ## Registrations -/

namespace Registration

variable {A : Assertion κ} {contestId userId : Uuid}

theorem triple_openContest (hA : ∀ s, A s → s.Intact none) :
    Triple A (openContest contestId)
      (fun _ s => A s ∧ s.database.hasContest contestId = true) (Fault.Harmless p) := by
  refine Triple.bind (Contest.triple_find hA) fun contest => ?_
  refine Triple.bind Triple.now fun now => ?_
  split
  · exact Triple.pure fun _ h => h.1
  · exact Triple.refuse (fun s h => hA s h.1.1) rfl

theorem spares_register : Spares (κ := κ) p (Stores.Ready p) (register contestId userId) := by
  refine Triple.bind (triple_openContest fun _ => Stores.Ready.intact) fun contest => ?_
  rw [← bind_assoc]
  refine Triple.bind (Triple.lookup (fun s h => h.1.intact) rfl rfl) fun profile => ?_
  -- The contest and the user were found, so the row refers to nothing that is missing.
  have hinsert : Spares (κ := κ) p (fun s => Stores.Ready p s ∧
      s.database.hasContest contestId = true ∧ s.database.hasUser userId = true) (do
        if ← Service.database (.insertRegistration contestId userId (← Service.now)) then
          return ()
        throw (.alreadyRegistered contestId userId)) := by
    refine Triple.bind Triple.now fun now => ?_
    refine Triple.changes (fun s h => h.1.1.intact) rfl ?_ rfl
    rintro hp s ⟨⟨hready, hcontest, huser⟩, rfl⟩ fault hfault
    obtain ⟨stamp, hstamp⟩ := Option.isSome_iff_exists.mp (hready.clock hp)
    simp only [Database.answer, Database.insertRegistration, hstamp, hcontest, huser,
      Bool.and_self, if_true] at hfault
    split_ifs at hfault
    · cases hfault
    · cases hfault
  cases contest.isEligible profile.currentYear with
  | false => exact Triple.refuse (fun s h => h.1.1.intact) rfl
  | true =>
    refine hinsert.pre ?_
    rintro s ⟨⟨hready, hcontest⟩, found, hanswer, rfl⟩
    exact ⟨hready, hcontest, Database.hasUser_of_profile? (Except.ok.inj hanswer)⟩

theorem spares_unregister : Spares (κ := κ) p (Stores.Ready p) (unregister contestId userId) := by
  refine Triple.bind (triple_openContest fun _ => Stores.Ready.intact) fun contest => ?_
  exact Triple.changes (fun s h => h.1.intact) rfl (fun _ _ _ _ h => nomatch h) rfl

theorem spares_list (hA : ∀ s, A s → s.Intact none) : Spares p A (list contestId) := by
  refine Triple.bind (Triple.reads hA rfl) fun found => ?_
  cases found with
  | false => exact Triple.refuse (fun s h => hA s h.1) rfl
  | true =>
    exact Triple.spares_read (fun s h => hA s h.1) rfl

end Registration

/-! ## Leaderboards -/

theorem Leaderboard.spares_update {contestId userId : Uuid} {patch : LeaderboardPatch} :
    Spares (κ := κ) p (Stores.Ready p) (update contestId userId patch) := by
  have hpatch : Spares (κ := κ) p (Stores.Ready p) (do
      if ← Service.database (.patchRanking contestId userId patch) then return ()
      throw (missing contestId userId)) :=
    Triple.changes (fun _ => Stores.Ready.intact) rfl (fun _ _ _ _ h => nomatch h) rfl
  unfold update
  cases patch.isEmpty with
  | true => exact Triple.refuse (fun _ => Stores.Ready.intact) rfl
  | false => exact hpatch

/-! ## Problems -/

namespace Problem

variable {A : Assertion κ} {contestId id : Uuid}

theorem triple_find (hA : ∀ s, A s → s.Intact none) :
    Triple A (find contestId id)
      (fun problem s => A s ∧ s.database.problem? contestId id = some problem)
      (Fault.Harmless p) := by
  refine Triple.post (Triple.lookup hA rfl rfl) ?_
  rintro problem s ⟨hs, found, hanswer, rfl⟩
  exact ⟨hs, Except.ok.inj hanswer⟩

/-- The statement of a problem that is found is there. -/
theorem spares_get (hA : ∀ s, A s → s.Intact none) : Spares p A (get contestId id) := by
  refine Triple.bind (triple_find hA) fun problem => ?_
  refine Triple.bind (Q := fun stored s => s.Intact none ∧ Statements.IsDocument stored)
    (Triple.content ?_) fun stored => ?_
  · rintro s ⟨hs, hfind⟩ content htexts
    have hintact := hA s hs
    obtain ⟨hmem, -, -⟩ := Database.mem_of_problem? hfind
    obtain ⟨text, htext, hdocument⟩ := hintact.stated problem hmem
    have hkey : Content.isKey problem.contentKey = true := by
      rw [hintact.consistent.keyed problem hmem]
      exact isKey_keyOf _ _
    rw [Content.Map.answer_get hkey htext] at htexts ⊢
    exact ⟨hintact.kept ⟨rfl, htexts⟩, hdocument⟩
  · intro s hs
    obtain ⟨document, hread⟩ := hs.2
    simp only [hread]
    exact hs.1

theorem spares_list (hA : ∀ s, A s → s.Intact none) : Spares p A (list contestId) := by
  refine Triple.bind (Triple.reads hA rfl) fun found => ?_
  cases found with
  | false => exact Triple.refuse (fun s h => hA s h.1) rfl
  | true =>
    exact Triple.spares_read (fun s h => hA s h.1) rfl

/-- To discard the document of a problem that has no row does not fail. -/
theorem spares_discardDocument {key : String} (hA : ∀ s, A s → s.Intact none ∧
    ∃ contestId id, key = keyOf contestId id ∧ ¬ s.database.HasProblemOf contestId id) :
    Spares p A (discardDocument key) := by
  refine Triple.bind (Q := fun _ => Stores.Intact none) (Triple.attempt ?_)
    fun _ => Triple.pure fun _ h => h
  intro s hs content htexts
  obtain ⟨hintact, contestId, id, rfl, hgone⟩ := hA s hs
  rw [Content.Map.answer_delete_of_isKey (isKey_keyOf contestId id)] at htexts
  exact hintact.discardStatement htexts hgone

/-- A problem is created if its name can be kept. -/
theorem spares_create {new : NewProblem}
    (hkept : p → Database.isStorable new.name = true) :
    Spares (κ := κ) p (Stores.Ready p) (create contestId new) := by
  refine Triple.bind (Triple.reads (fun _ => Stores.Ready.intact) rfl) fun found => ?_
  cases found with
  | false => exact Triple.refuse (fun _ h => h.1.intact) rfl
  | true =>
    refine Triple.bind (Q := fun id s => s.Intact none ∧ s.database.hasContest contestId = true ∧
      (p → s.Unused id)) (Triple.freshId ?_) fun id => ?_
    · rintro s ⟨hready, hanswer⟩
      have hdrawn : Kept s { s with ids := s.ids.draw.2 } := ⟨rfl, rfl⟩
      exact ⟨hready.intact.kept hdrawn, Except.ok.inj hanswer,
        fun hp => (hready.fresh hp).kept hdrawn⟩
    · refine Triple.bind (Q := fun _ s => s.Intact none ∧ s.database.hasContest contestId = true ∧
        (p → s.database.hasProblem id = false) ∧
        s.texts (keyOf contestId id) = some (document new.description)) ?_ fun _ => ?_
      · -- A new document is written, or an old one is met and stays.
        apply Triple.content
        intro s hs content htexts
        have hintact := hs.1
        have hcontest := hs.2.1
        have hunused := hs.2.2
        rcases s.texts.answer_create (document new.description) (isKey_keyOf contestId id) with
          ⟨-, hrefused⟩ | hput
        · simp only [ofNew, hrefused] at htexts ⊢
          exact ⟨hintact.kept ⟨rfl, htexts⟩, fun _ => nofun⟩
        · simp only [ofNew, hput] at htexts ⊢
          refine ⟨hintact.putStatement htexts (Statements.isDocument_document _), hcontest,
            fun hp => (hunused hp).problem, ?_⟩
          rw [Stores.texts, htexts, Function.update_self]
      · refine Triple.bind (Q := fun _ => Stores.Intact none) (Triple.database ?_)
          fun _ => Triple.pure fun _ h => h
        intro s hs answer db hanswer
        obtain ⟨hintact, hcontest, hnew, htext⟩ := hs
        cases answer with
        | ok _ =>
          exact hintact.insertProblem hanswer rfl
            ⟨_, htext, Statements.isDocument_document _⟩
        | error fault =>
          refine ⟨hintact.refused hanswer, fun hp => ?_⟩
          -- Nothing stands in the way of the row.
          have hstorable : Database.isStorableProblem (ofNew contestId id new) = true := by
            simp [Database.isStorableProblem, ofNew, hkept hp, Database.isStorable_keyOf]
          have hfree : s.database.hasProblem (ofNew contestId id new).id = false := hnew hp
          have hplace : s.database.hasContest (ofNew contestId id new).contestId = true := hcontest
          simp only [Database.answer, Database.insertProblem, hstorable, hfree, hplace,
            Bool.not_true, Bool.false_eq_true, if_false] at hanswer
          cases hanswer

/-- A problem is changed if its new name can be kept. -/
theorem spares_update {change : ProblemChange}
    (hkept : p → ∀ name, change.name = some name → Database.isStorable name = true) :
    Spares (κ := κ) p (Stores.Ready p) (update contestId id change) := by
  refine Triple.bind (triple_find fun _ => Stores.Ready.intact) fun problem => ?_
  -- From here on the row stays until it is replaced, so it is not missed then.
  have hend : Spares (κ := κ) p (fun s => s.Intact none ∧
      s.database.problem? contestId id = some problem) (do
        if ← Service.database (.replaceProblem (problem.apply change)) then
          return problem.apply change
        if change.description.isSome then discardDocument (problem.apply change).contentKey
        throw (missing id)) := by
    refine Triple.bind (Q := fun replaced s => s.Intact none ∧ replaced = true)
      (Triple.database ?_) fun replaced => ?_
    · intro s hs answer db hanswer
      obtain ⟨hintact, hfind⟩ := hs
      obtain ⟨hmem, hcontest, hid⟩ := Database.mem_of_problem? hfind
      cases answer with
      | ok replaced =>
        have hfound := (Database.replaceProblem_ok (congrArg Prod.fst hanswer)).1
        exact ⟨hintact.replaceProblem hanswer, hfound.mpr ⟨problem, hmem, rfl, rfl⟩⟩
      | error fault =>
        refine ⟨hintact.refused hanswer, fun hp => ?_⟩
        have hname : Database.isStorable (problem.apply change).name = true := by
          simp only [apply]
          cases hchange : change.name with
          | none => exact hintact.named problem hmem
          | some name => exact hkept hp name hchange
        simp only [Database.answer, Database.replaceProblem, hname, Bool.not_true,
          Bool.false_eq_true, if_false] at hanswer
        cases hanswer
    · cases replaced with
      | true => exact Triple.pure fun _ h => h.1
      | false => exact fun s h => absurd h.2 Bool.false_ne_true
  cases hdescription : change.description with
  | none =>
    rw [hdescription] at hend
    exact hend.pre fun s h => ⟨h.1.intact, h.2⟩
  | some description =>
    rw [hdescription] at hend
    refine Triple.bind (Triple.content ?_) fun _ => hend
    intro s hs content htexts
    have hintact := hs.1.intact
    obtain ⟨hmem, hcontest, hid⟩ := Database.mem_of_problem? hs.2
    have hkey : (problem.apply change).contentKey = keyOf contestId id := by
      rw [← hcontest, ← hid]
      exact hintact.consistent.keyed problem hmem
    have hput : s.texts.answer (.put (keyOf contestId id) (document description) .overwrite) =
        (.ok (), Function.update s.texts (keyOf contestId id) (some (document description))) :=
      Content.Map.answer_put_of_free (isKey_keyOf contestId id) (by rintro ⟨⟨⟩, -⟩)
    rw [hkey, hput] at htexts ⊢
    exact ⟨hintact.putStatement htexts (Statements.isDocument_document _), hs.2⟩

/-- A problem that is deleted has no row any more when its document is discarded. -/
theorem spares_delete : Spares (κ := κ) p (Stores.Ready p) (delete contestId id) := by
  refine Triple.bind (triple_find fun _ => Stores.Ready.intact) fun problem => ?_
  refine Triple.bind (Q := fun removed s => s.Intact none ∧ (removed = true →
    problem.contentKey = keyOf contestId id ∧ ¬ s.database.HasProblemOf contestId id))
    (Triple.database ?_) fun removed => ?_
  · intro s hs answer db hanswer
    have hintact := hs.1.intact
    obtain ⟨hmem, hcontest, hid⟩ := Database.mem_of_problem? hs.2
    have heffect := Database.effect_answer s.database (.removeProblem contestId id)
    rw [hanswer] at heffect
    cases answer with
    | error fault => exact nomatch (congrArg Prod.fst hanswer : _ = Except.error fault)
    | ok removed =>
      refine ⟨hintact.effect heffect rfl, ?_⟩
      rintro rfl
      refine ⟨?_, heffect.not_hasProblemOf_removed.2⟩
      rw [← hcontest, ← hid]
      exact hintact.consistent.keyed problem hmem
  · cases removed with
    | false => exact Triple.refuse (fun _ h => h.1) rfl
    | true => exact spares_discardDocument fun s h => ⟨h.1, contestId, id, h.2 rfl⟩

end Problem

/-! ## Submissions -/

namespace Submission

variable {A : Assertion κ} {id userId : Uuid}

theorem spares_status (hA : ∀ s, A s → s.Intact none) : Spares p A (status id) :=
  Triple.post (Triple.lookup hA rfl rfl) fun _ s h => hA s h.1

theorem spares_list (hA : ∀ s, A s → s.Intact none) {problemId : Uuid} {page : UInt32} :
    Spares p A (list userId problemId page) :=
  Triple.spares_read hA rfl

/-- The code of a submission that is found is there. -/
theorem triple_find (hA : ∀ s, A s → s.Intact none) :
    Triple A (do Service.found (missing id) (← Service.database (.findSubmission id)))
      (fun submission s => s.Intact none ∧ (submission.kind = .code →
        ∃ text, s.texts (codeKey submission.id) = some text)) (Fault.Harmless p) := by
  refine Triple.post (Triple.lookup hA rfl rfl) ?_
  rintro submission s ⟨hs, found, hanswer, rfl⟩
  have hintact := hA s hs
  refine ⟨hintact, fun hcode => ?_⟩
  have hread : s.database.submission? id = .ok (some submission) := hanswer
  unfold Database.submission? at hread
  cases hrow : s.database.submissionRow? id with
  | none =>
    rw [hrow] at hread
    exact nomatch hread
  | some row =>
    have hmem : row ∈ s.database.submissions := List.mem_of_find?_eq_some hrow
    obtain ⟨sub, hsub, hid, hkind⟩ := hintact.readSubmission hmem
    simp only [hrow, hsub, Except.map, Except.ok.injEq, Option.some.injEq] at hread
    subst hread
    rw [hid]
    rw [hkind] at hcode
    exact (hintact.coded row hmem hcode).resolve_left nofun

theorem spares_details (hA : ∀ s, A s → s.Intact none) : Spares p A (details id) := by
  unfold details
  rw [← bind_assoc]
  refine Triple.bind (triple_find hA) fun submission => ?_
  have hend : ∀ code : Option String, Spares p (Stores.Intact (κ := κ) none) (do
      return (⟨submission, code, ← Service.database (.testResults id)⟩ : SubmissionDetails)) :=
    fun code => Triple.bind (Triple.reads (fun _ h => h) rfl) fun results =>
      Triple.pure fun _ h => h.1
  cases hkind : submission.kind with
  | mcq => exact (hend none).pre fun _ h => h.1
  | code =>
    refine Triple.bind (Triple.map (Triple.content ?_)) hend
    intro s hs content htexts
    obtain ⟨text, htext⟩ := hs.2 rfl
    rw [Content.Map.answer_get (isKey_codeKey submission.id) htext] at htexts ⊢
    exact hs.1.kept ⟨rfl, htexts⟩

/-- Code that is handed in is there, if the submission is one of code. -/
theorem triple_requiredCode (hA : ∀ s, A s → s.Intact none) {new : NewSubmission} :
    Triple A (requiredCode new) (fun code s => (new.kind = .code → code.isSome = true) ∧ A s)
      (Fault.Harmless p) := by
  unfold requiredCode
  cases new.kind with
  | mcq => exact Triple.pure fun s h => ⟨nofun, h⟩
  | code =>
    refine Triple.map (Triple.post (Triple.found fun s h => ?_) ?_)
    · exact ⟨hA s h, fun _ => nofun⟩
    · exact fun body s h => ⟨fun _ => rfl, h.1⟩

/-- What a submission needs to be recorded: its user is registered for the contest, and its problem
    is there. If `p` holds, the clock can be kept and nothing is kept under the identifier. -/
structure Recordable (p : Prop) (userId : Uuid) (new : NewSubmission) (id : Uuid) (s : Stores κ) :
    Prop where
  intact : s.Intact none
  registered : s.database.isRegistered new.contestId userId = true
  problem : s.database.HasProblemOf new.contestId new.problemId
  clock : p → s.now.stamp?.isSome = true
  fresh : p → s.Unused id

/-- The row of a submission is refused only if its language cannot be kept. -/
theorem triple_insert {new : NewSubmission} {now : Instant} {owed : Option Uuid}
    (hkept : p → new.language.all Database.isStorable = true)
    (howed : new.kind = .code → owed = some id) :
    Triple (fun s : Stores κ => Recordable p userId new id s ∧ now = s.now)
      (Service.database (.insertSubmission (ofNew id userId now new)))
      (fun _ s => s.Intact owed) (Fault.Harmless p) := by
  apply Triple.database
  intro s hs answer db hanswer
  obtain ⟨hready, hnow⟩ := hs
  cases answer with
  | ok _ =>
    refine hready.intact.insertSubmission hanswer hready.problem (fun hcode => ?_) howed
    change new.kind = .code at hcode
    simp only [ofNew, hcode]
  | error fault =>
    refine ⟨hready.intact.refused hanswer, fun hp => ?_⟩
    obtain ⟨stamp, hstamp⟩ := Option.isSome_iff_exists.mp (hready.clock hp)
    have hrow : ∃ row, Database.SubmissionRow.ofSubmission? (ofNew id userId now new) =
        some row := by
      simp [Database.SubmissionRow.ofSubmission?, ofNew, hkept hp, hnow, hstamp, guard]
    obtain ⟨row, hrow⟩ := hrow
    have hnew : s.database.hasSubmission (ofNew id userId now new).id = false :=
      (hready.fresh hp).submission
    -- Who is registered is a user, and the contest exists.
    obtain ⟨g, hg, hpair⟩ := List.any_eq_true.mp hready.registered
    simp only [Bool.and_eq_true, beq_iff_eq] at hpair
    obtain ⟨hcontest, huser⟩ := hready.intact.consistent.registrations g hg
    rw [hpair.1] at hcontest
    rw [hpair.2] at huser
    obtain ⟨q, hq, -, hid⟩ := hready.problem
    have hproblem : s.database.hasProblem new.problemId = true :=
      List.any_eq_true.mpr ⟨q, hq, beq_iff_eq.mpr hid⟩
    have hknown : (s.database.hasUser (ofNew id userId now new).userId &&
        s.database.hasContest (ofNew id userId now new).contestId &&
        s.database.hasProblem (ofNew id userId now new).problemId) = true := by
      simp [ofNew, huser, hcontest, hproblem]
    simp only [Database.answer, Database.insertSubmission, hrow, hnew, hknown,
      Bool.false_eq_true, if_false, if_true] at hanswer
    cases hanswer

/-- A submission of a registered user is recorded if its language can be kept. -/
theorem spares_create {new : NewSubmission}
    (hkept : p → new.language.all Database.isStorable = true) :
    Spares (κ := κ) p (fun s => Stores.Ready p s ∧
      s.database.isRegistered new.contestId userId = true) (create userId new) := by
  refine Triple.bind (triple_requiredCode fun s h => h.1.intact) fun code => ?_
  refine Triple.of_fact fun hcode => ?_
  rw [← bind_assoc]
  refine Triple.bind (Triple.lookup (fun s h => h.1.intact) rfl rfl) fun problem => ?_
  by_cases hmatch : problem.kind = new.kind
  · rw [if_neg (not_not_intro hmatch)]
    refine Triple.bind (Q := Recordable p userId new) (Triple.freshId ?_) fun id => ?_
    · rintro s ⟨⟨hready, hregistered⟩, found, hanswer, rfl⟩
      have hdrawn : Kept s { s with ids := s.ids.draw.2 } := ⟨rfl, rfl⟩
      obtain ⟨hmem, hcontest, hid⟩ := Database.mem_of_problem? (Except.ok.inj hanswer)
      exact ⟨hready.intact.kept hdrawn, hregistered, ⟨problem, hmem, hcontest, hid⟩, hready.clock,
        fun hp => (hready.fresh hp).kept hdrawn⟩
    refine Triple.bind Triple.now fun now => ?_
    cases code with
    | none =>
      have hmcq : new.kind = .code → none = some id := fun h => nomatch hcode h
      exact Triple.bind (triple_insert hkept hmcq) fun _ => Triple.pure fun _ h => h
    | some body =>
      refine Triple.bind (triple_insert hkept fun _ => rfl) fun _ => ?_
      refine Triple.bind (Q := fun _ => Stores.Intact none) (Triple.content ?_)
        fun _ => Triple.pure fun _ h => h
      intro s hintact content htexts
      rcases s.texts.answer_create body (isKey_codeKey id) with ⟨⟨text, htext⟩, hrefused⟩ | hput
      · -- Code that is there already stays, so that none is owed.
        rw [hrefused] at htexts ⊢
        exact ⟨(hintact.paid htext).kept ⟨rfl, htexts⟩, fun _ => nofun⟩
      · rw [hput] at htexts ⊢
        have htext : LawfulContentStore.texts content (codeKey id) = some body := by
          rw [htexts]
          exact Function.update_self ..
        exact (hintact.putCode htexts).paid htext
  · rw [if_pos hmatch]
    exact Triple.refuse (fun s h => h.1.1.intact) rfl

end Submission

end ContestPlatform
