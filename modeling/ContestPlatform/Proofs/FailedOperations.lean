import ContestPlatform.Proofs.Answers
import ContestPlatform.Proofs.ProblemRows
import ContestPlatform.Proofs.StatementConsistency
import ContestPlatform.Proofs.WritingCalls

/-!
# What a failed operation leaves behind

There is no transaction over the two stores, and any call may fail. Still, an operation that ends
with a fault has changed nothing, with three exceptions (`InGap`): the row of a submission of which
the code could not be written, the document of a problem of which the row was rejected, and the new
document of a problem of which the row could not be replaced. What is left behind then is one row or
one text.

The operations run alone here: nothing else uses the stores meanwhile, but every call may fail.
-/

namespace ContestPlatform

open Interleaving

/-- Every call may fail. -/
def troubled : Regime where
  admits _ := True
  mayFail _ := True
  mayCancel := True

/-- The failure of a call after which something of the operation is left behind. -/
def isGap : Operation → Event → Bool
  | .createSubmission .., ⟨_, _, .content (.put ..), .error _⟩ => true
  | .createProblem .., ⟨_, _, .database (.insertProblem _), .error _⟩ => true
  | .updateProblem _ _ change, ⟨_, _, .database (.replaceProblem _), .error _⟩ =>
    change.description.isSome
  | _, _ => false

/-- The operation failed where it leaves something behind. -/
def InGap (operation : Operation) (log : List Event) : Prop :=
  ∃ e ∈ log, isGap operation e = true

variable {κ : Type} [LawfulContentStore κ]

/-- What an operation that failed has left of the stores as they were before. -/
structure LeftBehind (operation : Operation) (log : List Event) (s s' : Stores κ) : Prop where
  kept : ¬ InGap operation log → Kept s s'
  /-- A pending row without code. -/
  pending : InGap operation log → ∀ userId new, operation = .createSubmission userId new →
    new.kind = .code ∧ s'.texts = s.texts ∧ ∃ id createdAt row, Drew log 0 id ∧
      Database.SubmissionRow.ofSubmission? (.ofNew id userId createdAt new) = some row ∧
      row.status = SubmissionState.pending.name ∧ s.database.hasSubmission row.id = false ∧
      s'.database = { s.database with submissions := s.database.submissions ++ [row] }
  /-- A document under a key where nothing was kept. -/
  document : InGap operation log → ∀ contestId new, operation = .createProblem contestId new →
    s'.database = s.database ∧ ∃ id, Drew log 0 id ∧ s.texts (Problem.keyOf contestId id) = none ∧
      s'.texts = Function.update s.texts (Problem.keyOf contestId id)
        (some (Problem.document new.description))
  /-- The new document of a problem whose row is the old one. -/
  overwritten : InGap operation log → ∀ contestId id change,
    operation = .updateProblem contestId id change → s'.database = s.database ∧
      ∃ p description, s.database.problem? contestId id = some p ∧
        change.description = some description ∧
        s'.texts = Function.update s.texts p.contentKey (some (Problem.document description))

/-! ## Running alone -/

/-- Whatever the calls of a program that runs alone are answered, `Q` holds in the end. -/
def Ensures (operation : Operation) (Q : Shared κ → Except Fault Json → Prop) :
    StoreProgram (Except Fault Json) → Shared κ → Prop
  | .done result, s => Q s result
  | .ask call next, s => ∀ answer stores, Answered troubled s call answer stores →
    Ensures operation Q (next answer) (s.after ⟨0, operation, call, answer⟩ stores)

section Alone

variable {stores : Stores κ} {P : Pool κ}

theorem shared_of_no_tasks (hreach : Reachable troubled (Pool.initial stores) P)
    (hnone : P.tasks = []) : P.toShared = ⟨stores, []⟩ := by
  induction hreach with
  | refl => rfl
  | tail _ hstep ih =>
    -- No step ends in a pool without tasks.
    have hlength := congrArg List.length hnone
    cases hstep with
    | begin_ operation _ => simp at hlength
    | call htask _ | cancel htask _ =>
      have hi := (List.getElem?_eq_some_iff.mp htask).1
      rw [List.length_set, List.length_nil] at hlength
      omega

private theorem of_set_eq_singleton {α : Type} {xs : List α} {i : Nat} {x y z : α}
    (hx : xs[i]? = some x) (h : xs.set i y = [z]) : xs = [x] ∧ i = 0 ∧ y = z := by
  have hlength : xs.length = 1 := by
    rw [← List.length_set, h, List.length_singleton]
  obtain ⟨a, rfl⟩ := List.length_eq_one_iff.mp hlength
  have hi : i < 1 := (List.getElem?_eq_some_iff.mp hx).1
  obtain rfl : i = 0 := by omega
  exact ⟨congrArg (fun a => [a]) (Option.some.inj hx), rfl, (List.cons.inj h).1⟩

/-- What a program ensures from its start it ensures from where it is, if its task is the only
    one. -/
theorem Ensures.of_reachable {operation : Operation} {Q : Shared κ → Except Fault Json → Prop}
    (hstart : Ensures operation Q operation.run.run ⟨stores, []⟩)
    (hreach : Reachable troubled (Pool.initial stores) P)
    {p : StoreProgram (Except Fault Json)} (halone : P.tasks = [⟨operation, some p⟩]) :
    Ensures operation Q p P.toShared := by
  induction hreach generalizing p with
  | refl => exact nomatch halone
  | tail hreach hstep ih =>
    cases hstep with
    | begin_ begun _ =>
      -- The task that is begun is the only one, so nothing was done before.
      obtain ⟨hnone, hbegun⟩ := List.append_eq_singleton_iff.mp halone |>.resolve_right (by simp)
      cases hbegun
      rw [shared_of_no_tasks hreach hnone]
      exact hstart
    | call htask hanswer =>
      obtain ⟨htasks, rfl, hnext⟩ := of_set_eq_singleton htask halone
      cases hnext
      exact ih htasks _ _ hanswer
    | cancel htask _ =>
      obtain ⟨-, -, hnext⟩ := of_set_eq_singleton htask halone
      exact nomatch hnext

end Alone

/-! ## What was not touched -/

/-- Nothing was changed so far, and no call failed after which something is left behind. -/
structure Untouched (operation : Operation) (s : Stores κ) (t : Shared κ) : Prop where
  kept : Kept s t.stores
  noGap : ∀ e ∈ t.log, isGap operation e = false

/-- What has to be shown of the end of an operation. -/
def Leaves (operation : Operation) (s : Stores κ) (t : Shared κ) (result : Except Fault Json) :
    Prop :=
  ∀ fault, result = .error fault → LeftBehind operation t.log s t.stores

/-- The operation leaves behind only what it may, whatever its calls are answered. -/
def Settles (operation : Operation) (s : Stores κ) (t : Shared κ) : Prop :=
  Ensures operation (Leaves operation s) operation.run.run t

section Untouched

variable {operation : Operation} {s : Stores κ} {t : Shared κ}

theorem leaves_succeeded {json : Json} :
    Ensures operation (Leaves operation s) (succeeded json) t :=
  fun _ h => nomatch h

namespace Untouched

variable (h : Untouched operation s t)

include h

theorem leftBehind : LeftBehind operation t.log s t.stores := by
  have hno : ¬ InGap operation t.log := by
    rintro ⟨e, he, hgap⟩
    rw [h.noGap e he] at hgap
    exact nomatch hgap
  exact ⟨fun _ => h.kept, fun hgap => absurd hgap hno, fun hgap => absurd hgap hno,
    fun hgap => absurd hgap hno⟩

theorem may_fail (fault : Fault) : Ensures operation (Leaves operation s) (failed fault) t :=
  fun _ _ => h.leftBehind

theorem after {e : Event} {stores : Stores κ} (hkept : Kept t.stores stores)
    (hgap : isGap operation e = false) : Untouched operation s (t.after e stores) := by
  refine ⟨h.kept.trans hkept, fun e' he' => ?_⟩
  rcases List.mem_append.mp he' with hold | hnew
  · exact h.noGap e' hold
  · rw [List.mem_singleton.mp hnew]
    exact hgap

theorem failed_after_error {call : Database.Call} {fault : Fault} {stores : Stores κ}
    (hans : Answered troubled t (.database call) (.error fault) stores)
    (hgap : isGap operation ⟨0, operation, .database call, .error fault⟩ = false)
    (fault' : Fault) : Ensures operation (Leaves operation s) (failed fault')
      (t.after ⟨0, operation, .database call, .error fault⟩ stores) :=
  (h.after hans.kept_of_database_error hgap).may_fail fault'

theorem failed_after_denial {call : Database.Call} {answer : call.Answer} {stores : Stores κ}
    (hans : Answered troubled t (.database call) answer stores)
    (hdenies : call.denies answer = true)
    (hgap : isGap operation ⟨0, operation, .database call, answer⟩ = false) (fault : Fault) :
    Ensures operation (Leaves operation s) (failed fault)
      (t.after ⟨0, operation, .database call, answer⟩ stores) :=
  (h.after (hans.kept_of_denies hdenies) hgap).may_fail fault

end Untouched

end Untouched

/-! ## The operations -/

section Operations

variable {operation : Operation} {s : Stores κ} {t : Shared κ}

theorem ensures_read {call : Call} {next : call.Answer → StoreProgram (Except Fault Json)}
    (hreads : call.reads = true)
    (hgap : ∀ answer, isGap operation ⟨0, operation, call, answer⟩ = false)
    (h : Untouched operation s t)
    (hnext : ∀ answer t', Untouched operation s t' →
      Ensures operation (Leaves operation s) (next answer) t') :
    Ensures operation (Leaves operation s) (.ask call next) t :=
  fun answer _ hans => hnext answer _ (h.after (hans.kept_of_reads hreads) (hgap answer))

theorem ensures_freshId {next : Uuid → StoreProgram (Except Fault Json)}
    (hgap : ∀ id, isGap operation ⟨0, operation, .freshId, id⟩ = false)
    (h : Untouched operation s t)
    (hnext : ∀ id t', Untouched operation s t' → Drew t'.log 0 id →
      Ensures operation (Leaves operation s) (next id) t') :
    Ensures operation (Leaves operation s) (.ask .freshId next) t := by
  intro id stores hans
  refine hnext id _ (h.after (hans.kept_of_reads rfl) (hgap id)) ?_
  exact drew_append.mpr (Or.inr ⟨rfl, rfl⟩)

theorem ensures_findProblem {contestId id : Uuid}
    {next : Except Fault (Option Problem) → StoreProgram (Except Fault Json)}
    (hgap : ∀ answer, isGap operation
      ⟨0, operation, .database (.findProblem contestId id), answer⟩ = false)
    (h : Untouched operation s t)
    (hnext : ∀ answer t', Untouched operation s t' →
      (∀ p, answer = .ok (some p) → s.database.problem? contestId id = some p) →
      Ensures operation (Leaves operation s) (next answer) t') :
    Ensures operation (Leaves operation s) (.ask (.database (.findProblem contestId id)) next)
      t := by
  intro answer stores hans
  refine hnext answer _ (h.after (hans.kept_of_reads rfl) (hgap answer)) fun p hp => ?_
  subst hp
  -- The tables are as they were, so the row is one of those.
  rw [← h.kept.database]
  exact Except.ok.inj hans.database_ok.1

/-- An operation that only reads leaves nothing behind, however it ends. -/
theorem ensures_of_asks (hgap : ∀ e, isGap operation e = false)
    {p : StoreProgram (Except Fault Json)} (hasks : p.Asks (·.reads = true))
    (h : Untouched operation s t) : Ensures operation (Leaves operation s) p t := by
  induction p generalizing t with
  | done result => exact fun _ _ => h.leftBehind
  | ask call next ih =>
    exact ensures_read hasks.1 (fun _ => hgap _) h fun answer t h => ih answer (hasks.2 answer) h

theorem settles_createContest (terms : ContestTerms)
    (h : Untouched (.createContest terms) s t) : Settles (.createContest terms) s t := by
  unfold Settles
  rw [Contest.calls_create]
  cases terms.windowFlaw? with
  | some flaw => exact h.may_fail _
  | none =>
    refine ensures_read rfl (fun _ => rfl) h fun id t h => ?_
    rintro (fault | _) stores hans
    · exact h.failed_after_error hans rfl _
    · exact leaves_succeeded

theorem settles_updateContest (id : Uuid) (terms : ContestTerms)
    (h : Untouched (.updateContest id terms) s t) : Settles (.updateContest id terms) s t := by
  unfold Settles
  rw [Contest.calls_update]
  cases terms.windowFlaw? with
  | some flaw => exact h.may_fail _
  | none =>
    rintro (fault | (_ | _)) stores hans
    · exact h.failed_after_error hans rfl _
    · exact h.failed_after_denial hans rfl rfl _
    · exact leaves_succeeded

theorem settles_deleteContest (id : Uuid) (h : Untouched (.deleteContest id) s t) :
    Settles (.deleteContest id) s t := by
  unfold Settles
  rw [Contest.calls_delete]
  rintro (fault | (_ | _)) stores hans
  · exact h.failed_after_error hans rfl _
  · exact h.failed_after_denial hans rfl rfl _
  · exact leaves_succeeded

theorem ensures_openCalls (hgap : ∀ e, isGap operation e = false)
    {contestId : Uuid} {next : Contest → StoreProgram (Except Fault Json)}
    (h : Untouched operation s t)
    (hnext : ∀ contest t', Untouched operation s t' →
      Ensures operation (Leaves operation s) (next contest) t') :
    Ensures operation (Leaves operation s) (Registration.openCalls contestId next) t := by
  refine ensures_read rfl (fun _ => hgap _) h fun answer t h => ?_
  rcases answer with fault | (_ | contest)
  · exact h.may_fail _
  · exact h.may_fail _
  refine ensures_read rfl (fun _ => hgap _) h fun now t h => ?_
  split
  · exact hnext contest t h
  · exact h.may_fail _

theorem settles_register (contestId userId : Uuid)
    (h : Untouched (.register contestId userId) s t) :
    Settles (.register contestId userId) s t := by
  unfold Settles
  rw [Registration.calls_register]
  refine ensures_openCalls (fun _ => rfl) h fun contest t h => ?_
  refine ensures_read rfl (fun _ => rfl) h fun answer t h => ?_
  rcases answer with fault | (_ | profile)
  · exact h.may_fail _
  · exact h.may_fail _
  dsimp only
  split
  · refine ensures_read rfl (fun _ => rfl) h fun now t h => ?_
    -- The last call is the only one that writes, and it writes only if it succeeds.
    rintro (fault | (_ | _)) stores hans
    · exact h.failed_after_error hans rfl _
    · exact h.failed_after_denial hans rfl rfl _
    · exact leaves_succeeded
  · exact h.may_fail _

theorem settles_unregister (contestId userId : Uuid)
    (h : Untouched (.unregister contestId userId) s t) :
    Settles (.unregister contestId userId) s t := by
  unfold Settles
  rw [Registration.calls_unregister]
  refine ensures_openCalls (fun _ => rfl) h fun contest t h => ?_
  rintro (fault | (_ | _)) stores hans
  · exact h.failed_after_error hans rfl _
  · exact h.failed_after_denial hans rfl rfl _
  · exact leaves_succeeded

theorem settles_updateLeaderboard (contestId userId : Uuid) (patch : LeaderboardPatch)
    (h : Untouched (.updateLeaderboard contestId userId patch) s t) :
    Settles (.updateLeaderboard contestId userId patch) s t := by
  unfold Settles
  rw [Leaderboard.calls_update]
  split
  · exact h.may_fail _
  rintro (fault | (_ | _)) stores hans
  · exact h.failed_after_error hans rfl _
  · exact h.failed_after_denial hans rfl rfl _
  · exact leaves_succeeded

theorem settles_deleteProblem (contestId id : Uuid)
    (h : Untouched (.deleteProblem contestId id) s t) :
    Settles (.deleteProblem contestId id) s t := by
  unfold Settles
  rw [Problem.calls_delete]
  refine ensures_read rfl (fun _ => rfl) h fun answer t h => ?_
  rcases answer with fault | (_ | problem)
  · exact h.may_fail _
  · exact h.may_fail _
  rintro (fault | (_ | _)) stores hans
  · exact h.failed_after_error hans rfl _
  · exact h.failed_after_denial hans rfl rfl _
  · -- That the document cannot be removed is not a failure of the operation.
    exact fun _ _ _ => leaves_succeeded

theorem settles_createProblem (contestId : Uuid) (new : NewProblem)
    (h : Untouched (.createProblem contestId new) s t) :
    Settles (.createProblem contestId new) s t := by
  unfold Settles
  rw [Problem.calls_create]
  refine ensures_read rfl (fun _ => rfl) h fun answer t h => ?_
  rcases answer with fault | (_ | _)
  · exact h.may_fail _
  · exact h.may_fail _
  refine ensures_freshId (fun _ => rfl) h fun id t h hdrew => ?_
  rintro (fault | _) stores hans
  · exact (h.after hans.kept_of_content_error rfl).may_fail _
  -- Now the document is written, under a key where nothing was kept.
  obtain ⟨hput, hdatabase, htexts⟩ := hans.content_ok
  have hnone := Content.Map.eq_none_of_answer_create_ok hput
  rw [Content.Map.answer_put_ok hput] at htexts
  rintro (fault | _) stores' hans'
  · -- Then only the row can be rejected, and the document stays.
    have hkept := hans'.kept_of_database_error
    intro _ _
    refine
      { kept := fun hgap => absurd ⟨_, List.mem_append_right _ List.mem_cons_self, rfl⟩ hgap
        pending := fun _ _ _ heq => nomatch heq
        document := fun _ c n heq => ?_
        overwritten := fun _ _ _ _ heq => nomatch heq }
    cases heq
    rw [← h.kept.texts]
    refine ⟨(hkept.database.trans hdatabase).trans h.kept.database, id, ?_, hnone, ?_⟩
    · exact drew_append.mpr (Or.inl (drew_append.mpr (Or.inl hdrew)))
    · exact hkept.texts.trans htexts
  · exact leaves_succeeded

theorem ensures_replaceCalls {contestId id : Uuid} {change : ProblemChange}
    (hnone : change.description = none) (problem : Problem)
    (h : Untouched (.updateProblem contestId id change) s t) :
    Ensures (.updateProblem contestId id change) (Leaves (.updateProblem contestId id change) s)
      (Problem.replaceCalls id problem false) t := by
  rintro (fault | (_ | _)) stores hans
  · refine h.failed_after_error hans ?_ _
    simp only [isGap, hnone, Option.isSome_none]
  · exact h.failed_after_denial hans rfl rfl _
  · exact leaves_succeeded

theorem settles_updateProblem (contestId id : Uuid) (change : ProblemChange)
    (h : Untouched (.updateProblem contestId id change) s t) :
    Settles (.updateProblem contestId id change) s t := by
  unfold Settles
  rw [Problem.calls_update]
  refine ensures_findProblem (fun _ => rfl) h fun answer t h hfind => ?_
  rcases answer with fault | (_ | problem)
  · exact h.may_fail _
  · exact h.may_fail _
  have hfind := hfind problem rfl
  cases hdescription : change.description with
  | none => exact ensures_replaceCalls hdescription _ h
  | some description =>
    rintro (fault | _) stores hans
    · exact (h.after hans.kept_of_content_error rfl).may_fail _
    -- Now the new document is in the place of the old one.
    obtain ⟨hput, hdatabase, htexts⟩ := hans.content_ok
    rw [Content.Map.answer_put_ok hput] at htexts
    have hdatabase := hdatabase.trans h.kept.database
    rintro (fault | (_ | _)) stores' hans'
    · have hkept := hans'.kept_of_database_error
      intro _ _
      refine
        { kept := fun hgap => absurd ⟨_, List.mem_append_right _ List.mem_cons_self, ?_⟩ hgap
          pending := fun _ _ _ heq => nomatch heq
          document := fun _ _ _ heq => nomatch heq
          overwritten := fun _ c i ch heq => ?_ }
      · simp only [isGap, hdescription, Option.isSome_some]
      · cases heq
        rw [← h.kept.texts]
        exact ⟨hkept.database.trans hdatabase, problem, description, hfind, hdescription,
          hkept.texts.trans htexts⟩
    · -- The row is still there, so the tables do not deny it.
      obtain ⟨hdenied, -⟩ := hans'.database_ok
      have hmissing := (Database.replaceProblem_ok hdenied).1.mpr ?_
      · exact nomatch hmissing
      · obtain ⟨hmem, hcontest, hid⟩ := Database.mem_of_problem? hfind
        refine ⟨problem, ?_, rfl, rfl⟩
        rw [Shared.after_stores, hdatabase]
        exact hmem
    · exact leaves_succeeded

theorem ensures_problemCalls {userId : Uuid} {new : NewSubmission} {code : Option String}
    (hkind : code.isSome = true → new.kind = .code)
    (h : Untouched (.createSubmission userId new) s t) :
    Ensures (.createSubmission userId new) (Leaves (.createSubmission userId new) s)
      (Submission.problemCalls userId new code) t := by
  refine ensures_read rfl (fun _ => rfl) h fun answer t h => ?_
  rcases answer with fault | (_ | problem)
  · exact h.may_fail _
  · exact h.may_fail _
  dsimp only
  split
  · refine ensures_freshId (fun _ => rfl) h fun id t h hdrew => ?_
    intro now stores hans
    have h : Untouched (.createSubmission userId new) s
        (t.after ⟨0, .createSubmission userId new, .now, now⟩ stores) :=
      h.after (hans.kept_of_reads rfl) rfl
    have hdrew : Drew (t.after ⟨0, .createSubmission userId new, .now, now⟩ stores).log 0 id :=
      drew_append.mpr (Or.inl hdrew)
    generalize t.after _ stores = t at h hdrew ⊢
    rintro (fault | _) stores hans
    · exact h.failed_after_error hans rfl _
    obtain ⟨row, hrow, hnew, hdatabase⟩ := hans.effect.1.insertSubmission_ok
    have htexts : stores.texts = t.stores.texts :=
      congrArg LawfulContentStore.texts hans.effect.2
    cases code with
    | none => exact leaves_succeeded
    | some body =>
      rintro (fault | _) stores' hans'
      · -- The row is there, and its code cannot be stored.
        have hkept := hans'.kept_of_content_error
        intro _ _
        refine
          { kept := fun hgap => absurd ⟨_, List.mem_append_right _ List.mem_cons_self, rfl⟩ hgap
            pending := fun _ u n heq => ?_
            document := fun _ _ _ heq => nomatch heq
            overwritten := fun _ _ _ _ heq => nomatch heq }
        cases heq
        rw [← h.kept.texts, ← h.kept.database]
        refine ⟨hkind rfl, hkept.texts.trans htexts, id, now, row, ?_, hrow,
          (Database.SubmissionRow.of_ofSubmission? hrow).2.2, hnew,
          hkept.database.trans hdatabase⟩
        exact drew_append.mpr (Or.inl (drew_append.mpr (Or.inl hdrew)))
      · exact leaves_succeeded
  · exact h.may_fail _

theorem settles_createSubmission (userId : Uuid) (new : NewSubmission)
    (h : Untouched (.createSubmission userId new) s t) :
    Settles (.createSubmission userId new) s t := by
  unfold Settles
  rw [Submission.calls_create]
  split
  case h_1 => exact ensures_problemCalls (fun hsome => nomatch hsome) h
  case h_2 hkind _ => exact ensures_problemCalls (fun _ => hkind) h
  case h_3 => exact h.may_fail _

end Operations

/-- Every operation leaves behind only what it may. -/
theorem settles (operation : Operation) (s : Stores κ) : Settles operation s ⟨s, []⟩ := by
  have h : Untouched operation s ⟨s, []⟩ :=
    ⟨⟨rfl, rfl⟩, fun e he => absurd he List.not_mem_nil⟩
  cases operation with
  | createContest terms => exact settles_createContest terms h
  | updateContest id terms => exact settles_updateContest id terms h
  | deleteContest id => exact settles_deleteContest id h
  | register contestId userId => exact settles_register contestId userId h
  | unregister contestId userId => exact settles_unregister contestId userId h
  | createProblem contestId new => exact settles_createProblem contestId new h
  | updateProblem contestId id change => exact settles_updateProblem contestId id change h
  | deleteProblem contestId id => exact settles_deleteProblem contestId id h
  | createSubmission userId new => exact settles_createSubmission userId new h
  | updateLeaderboard contestId userId patch =>
    exact settles_updateLeaderboard contestId userId patch h
  -- All others may only read.
  | _ =>
    refine ensures_of_asks (fun _ => rfl) ?_ h
    refine Program.Asks.mono (fun call hcall => ?_) (Operation.within_run _)
    exact hcall.resolve_right id

/-- An operation that runs alone and fails has changed nothing, unless it failed in one of three
    places, and then it has left behind one row or one text. -/
theorem failed_operation_leaves {stores : Stores κ} {P : Pool κ}
    (hreach : Reachable troubled (Pool.initial stores) P) {operation : Operation} {fault : Fault}
    (halone : P.tasks = [⟨operation, some (.done (.error fault))⟩]) :
    LeftBehind operation P.log stores P.stores :=
  (settles operation stores).of_reachable hreach halone fault rfl

section Sample

open Statements

private theorem reachable_unrecorded :
    ∃ P : Pool Content.Memory, Reachable troubled (Pool.initial sampleStores) P ∧
      P.tasks = [⟨.createProblem sampleContest sampleNew,
        some (.done (.error (.database .noRow)))⟩] ∧
      P.stores.texts (Problem.keyOf sampleContest sampleId) =
        some (Problem.document sampleNew.description) := by
  refine ⟨_, .tail (.tail (.tail (.tail (.tail .refl
    (.begin_ _ (.createProblem sampleContest sampleNew) trivial))
    (.call (i := 0) _ rfl (.database _ fun _ => trivial)))
    (.call (i := 0) _ rfl (.fresh sampleId ?_)))
    (.call (i := 0) _ rfl (.content _ fun _ => trivial)))
    (.call (i := 0) _ rfl
      (.trouble _ (Except.error (Fault.database .noRow)) ⟨_, rfl, rfl⟩ trivial)), rfl, rfl⟩
  -- The only call before the identifier is drawn looks for the contest.
  rintro task ⟨e, he, -, h⟩
  rcases he with _ | ⟨_, ⟨⟩⟩
  exact nomatch h

/-- The document of a problem without a row is all that is left of its creation. -/
theorem document_left_behind :
    ∃ P : Pool Content.Memory, Reachable troubled (Pool.initial sampleStores) P ∧
      LeftBehind (.createProblem sampleContest sampleNew) P.log sampleStores P.stores ∧
      P.stores.texts (Problem.keyOf sampleContest sampleId) =
        some (Problem.document sampleNew.description) := by
  obtain ⟨P, hreach, halone, htext⟩ := reachable_unrecorded
  exact ⟨P, hreach, failed_operation_leaves hreach halone, htext⟩

end Sample

end ContestPlatform
