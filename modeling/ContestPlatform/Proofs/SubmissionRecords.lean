import ContestPlatform.Proofs.ProblemOrigins
import ContestPlatform.Proofs.SubmissionRows
import ContestPlatform.Proofs.WritingCalls

/-!
# Submissions stay as they were handed in

Nothing that runs after a submission was created changes it: not its row, but for what the grader
writes, and not its code. Its row is under an identifier that nobody else draws, and so is its code,
under a key that is not the key of any statement. The row goes with its problem. Its contest cannot
go before that, because a contest that has problems cannot be removed. Once the problem is deleted
it does not come back, and the submission is not found any more.
-/

namespace ContestPlatform

open Interleaving

/-! ## What a task was told before it writes -/

/-- The code that is kept of what was handed in: only that of a code submission. -/
def NewSubmission.keptCode (new : NewSubmission) : Option String :=
  match new.kind with
  | .code => new.code
  | .mcq => none

namespace Submission

section Leads

variable {userId : Uuid} {new : NewSubmission} {exchanges : List Exchange}
  {q : StoreProgram (Except Fault Json)}

/-- A task that has got beyond looking for the problem has found it, and has the code that it has to
    keep. -/
theorem recorded_of_leads (h : Leads (Operation.createSubmission userId new).run.run exchanges q)
    (hbegun : ∀ next,
      q ≠ .ask (.database (.findProblem new.contestId new.problemId)) next)
    (hfailed : ∀ fault, q ≠ failed fault) :
    (new.kind = .code → ∃ body, new.keptCode = some body) ∧ ∃ problem rest,
      exchanges = ⟨.database (.findProblem new.contestId new.problemId),
        Except.ok (some problem)⟩ :: rest ∧
      Leads (recordCalls userId new new.keptCode) rest q := by
  have hproblem : Leads (problemCalls userId new new.keptCode) exchanges q → ∃ problem rest,
      exchanges = ⟨.database (.findProblem new.contestId new.problemId),
        Except.ok (some problem)⟩ :: rest ∧
      Leads (recordCalls userId new new.keptCode) rest q := by
    intro h
    cases h with
    | here => exact absurd rfl (hbegun _)
    | @on _ _ found rest _ h =>
      rcases found with fault | (_ | problem)
      · exact absurd h.of_done.2 (hfailed _)
      · exact absurd h.of_done.2 (hfailed _)
      · dsimp only at h
        split at h
        · exact ⟨problem, rest, rfl, h⟩
        · exact absurd h.of_done.2 (hfailed _)
  rw [calls_create] at h
  cases hkind : new.kind with
  | mcq =>
    have hcode : new.keptCode = none := by
      simp [NewSubmission.keptCode, hkind]
    simp only [hkind] at h
    rw [← hcode] at h
    exact ⟨nofun, hproblem h⟩
  | code =>
    have hcode : new.keptCode = new.code := by
      simp [NewSubmission.keptCode, hkind]
    cases hbody : new.code with
    | none =>
      simp only [hkind, hbody] at h
      exact absurd h.of_done.2 (hfailed _)
    | some body =>
      simp only [hkind, hbody] at h
      rw [← hbody, ← hcode] at h
      exact ⟨fun _ => ⟨body, hcode.trans hbody⟩, hproblem h⟩

/-- A row is inserted by the task that drew its identifier. -/
theorem inserted_of_leads {s : Submission}
    {next : Except Fault Unit → StoreProgram (Except Fault Json)}
    (h : Leads (Operation.createSubmission userId new).run.run exchanges
      (.ask (.database (.insertSubmission s)) next)) :
    ∃ problem id now, s = ofNew id userId now new ∧ exchanges =
      [⟨.database (.findProblem new.contestId new.problemId), Except.ok (some problem)⟩,
        ⟨.freshId, id⟩, ⟨.now, now⟩] := by
  obtain ⟨-, problem, rest, rfl, hrecord⟩ := recorded_of_leads h nofun nofun
  cases hrecord with
  | @on _ _ id _ _ h =>
  cases h with
  | @on _ _ now _ _ h =>
  cases h with
  | here => exact ⟨problem, id, now, rfl, rfl⟩
  | @on _ _ inserted _ _ h =>
    rcases inserted with fault | _
    · exact nomatch h.of_done.2
    · -- Behind the row at most the code is written.
      dsimp only at h
      split at h
      · exact nomatch h.of_done.2
      · cases h with
        | @on _ _ stored _ _ h =>
          rcases stored with fault | _
          · exact nomatch h.of_done.2
          · exact nomatch h.of_done.2

/-- The content store is called once at most, to create the code under the key of the
    submission. -/
theorem stored_of_leads {call : Content.Call}
    {next : call.Answer → StoreProgram (Except Fault Json)}
    (h : Leads (Operation.createSubmission userId new).run.run exchanges
      (.ask (.content call) next)) :
    ∃ id body, call = .put (codeKey id) body .createOnly := by
  obtain ⟨-, problem, rest, rfl, hrecord⟩ := recorded_of_leads h nofun nofun
  cases hrecord with
  | @on _ _ id _ _ h =>
  cases h with
  | @on _ _ now _ _ h =>
  cases h with
  | @on _ _ inserted _ _ h =>
  rcases inserted with fault | _
  · exact nomatch h.of_done.2
  · dsimp only at h
    split at h
    · exact nomatch h.of_done.2
    · next body _ =>
      cases h with
      | here => exact ⟨id, body, rfl⟩
      | @on _ _ stored _ _ h =>
        rcases stored with fault | _
        · exact nomatch h.of_done.2
        · exact nomatch h.of_done.2

/-- A submission that was created has its row and its code, if it has any. -/
theorem created_of_leads {json : Json}
    (h : Leads (Operation.createSubmission userId new).run.run exchanges (succeeded json)) :
    ∃ problem id now, json = (ofNew id userId now new).toJson ∧
      ⟨.database (.findProblem new.contestId new.problemId), Except.ok (some problem)⟩ ∈
        exchanges ∧
      ⟨.database (.insertSubmission (ofNew id userId now new)), Except.ok ()⟩ ∈ exchanges ∧
      match new.kind with
      | .mcq => new.keptCode = none
      | .code => ∃ body, new.keptCode = some body ∧
        ⟨.content (.put (codeKey id) body .createOnly), Except.ok ()⟩ ∈ exchanges := by
  obtain ⟨hkept, problem, rest, rfl, hrecord⟩ := recorded_of_leads h nofun nofun
  cases hrecord with
  | @on _ _ id _ _ h =>
  cases h with
  | @on _ _ now _ _ h =>
  cases h with
  | @on _ _ inserted _ _ h =>
  rcases inserted with fault | _
  · exact nomatch h.of_done.2
  have hmcq : new.kind = .mcq → new.keptCode = none := by
    intro hkind
    simp [NewSubmission.keptCode, hkind]
  cases hkind : new.kind with
  | mcq =>
    simp only [hmcq hkind] at h
    obtain ⟨rfl, hdone⟩ := h.of_done
    cases hdone
    exact ⟨problem, id, now, rfl, by simp, by simp, hmcq hkind⟩
  | code =>
    obtain ⟨body, hbody⟩ := hkept hkind
    simp only [hbody] at h
    cases h with
    | @on _ _ stored _ _ h =>
    rcases stored with fault | _
    · exact nomatch h.of_done.2
    · obtain ⟨rfl, hdone⟩ := h.of_done
      cases hdone
      exact ⟨problem, id, now, rfl, by simp, by simp, body, hbody, by simp⟩

end Leads

end Submission

/-- A change writes under the key of the problem that it has found. -/
private theorem Problem.changed_of_leads {contestId id : Uuid} {change : ProblemChange}
    {exchanges : List Exchange} {call : Content.Call}
    {next : call.Answer → StoreProgram (Except Fault Json)}
    (h : Leads (Operation.updateProblem contestId id change).run.run exchanges
      (.ask (.content call) next)) :
    ∃ q, ⟨.database (.findProblem contestId id), Except.ok (some q)⟩ ∈ exchanges ∧
      call.key = q.contentKey := by
  rw [calls_update] at h
  cases h with
  | @on _ _ found rest _ h =>
  rcases found with fault | (_ | q)
  · exact nomatch h.of_done.2
  · exact nomatch h.of_done.2
  refine ⟨q, List.mem_cons_self, ?_⟩
  have of_replaceCalls : ∀ rest wrote, Leads (replaceCalls id (q.apply change) wrote) rest
      (.ask (.content call) next) → call.key = q.contentKey := by
    intro rest wrote h
    cases h with
    | @on _ _ replaced _ _ h =>
    rcases replaced with fault | (_ | _)
    · exact nomatch h.of_done.2
    · cases wrote with
      | false => exact nomatch h.of_done.2
      | true =>
        -- The document that was written is removed again, under the same key.
        cases h with
        | here => rfl
        | on h => exact nomatch h.of_done.2
    · exact nomatch h.of_done.2
  cases hdescription : change.description with
  | none =>
    simp only [hdescription] at h
    exact of_replaceCalls _ _ h
  | some description =>
    simp only [hdescription] at h
    cases h with
    | here => rfl
    | @on _ _ stored _ _ h =>
      rcases stored with fault | _
      · exact nomatch h.of_done.2
      · exact of_replaceCalls _ _ h

private theorem Problem.discarded_of_leads {contestId id : Uuid} {exchanges : List Exchange}
    {call : Content.Call} {next : call.Answer → StoreProgram (Except Fault Json)}
    (h : Leads (Operation.deleteProblem contestId id).run.run exchanges
      (.ask (.content call) next)) :
    ∃ q, ⟨.database (.findProblem contestId id), Except.ok (some q)⟩ ∈ exchanges ∧
      call.key = q.contentKey := by
  rw [calls_delete] at h
  cases h with
  | @on _ _ found _ _ h =>
  rcases found with fault | (_ | q)
  · exact nomatch h.of_done.2
  · exact nomatch h.of_done.2
  cases h with
  | @on _ _ removed _ _ h =>
  rcases removed with fault | (_ | _)
  · exact nomatch h.of_done.2
  · exact nomatch h.of_done.2
  · cases h with
    | here => exact ⟨q, List.mem_cons_self, rfl⟩
    | on h => exact nomatch h.of_done.2

/-- The keys under which an operation writes: that of a statement, that of a problem that it has
    found, or that of the code of a submission, which it creates. -/
theorem Operation.key_of_leads {operation : Operation} {exchanges : List Exchange}
    {call : Content.Call} {next : call.Answer → StoreProgram (Except Fault Json)}
    (h : Leads operation.run.run exchanges (.ask (.content call) next))
    (hwrites : (Call.content call).reads = false) :
    (∃ contestId id, call.key = Problem.keyOf contestId id) ∨
    (∃ contestId id q, ⟨.database (.findProblem contestId id), Except.ok (some q)⟩ ∈ exchanges ∧
      call.key = q.contentKey) ∨
    ∃ id body, call = .put (Submission.codeKey id) body .createOnly := by
  have hmay : operation.mayWrite (.content call) := by
    rcases h.mayAsk with hreads | hmay
    · rw [hwrites] at hreads
      exact nomatch hreads
    · exact hmay
  cases operation with
  | createProblem contestId new =>
    cases call with
    | put key body mode =>
      cases mode with
      | createOnly =>
        obtain ⟨id, hkey⟩ := hmay
        exact Or.inl ⟨contestId, id, hkey⟩
      | overwrite => exact hmay.elim
    | get key => exact hmay.elim
    | delete key => exact hmay.elim
  | updateProblem contestId id change =>
    obtain ⟨q, hq, hkey⟩ := Problem.changed_of_leads h
    exact Or.inr (Or.inl ⟨contestId, id, q, hq, hkey⟩)
  | deleteProblem contestId id =>
    obtain ⟨q, hq, hkey⟩ := Problem.discarded_of_leads h
    exact Or.inr (Or.inl ⟨contestId, id, q, hq, hkey⟩)
  | createSubmission userId new => exact Or.inr (Or.inr (Submission.stored_of_leads h))
  | _ => exact False.elim hmay

/-! ## Any moment of a run -/

namespace Submission

variable {κ : Type}

/-- What has become of a submission whose row was inserted: the row is there, and so is the problem,
    or the problem was deleted and there is no row. -/
inductive Fate (writes : String → Prop) (s : Shared κ) (sub : Submission) : Prop where
  | stands (row : Database.SubmissionRow) (hrows : s.stores.database.rowsOf sub.id = [row])
      (hkeeps : row.Keeps sub) (hstatus : row.status = sub.state.name ∨ writes row.status)
      (hproblem : s.stores.database.HasProblemOf sub.contestId sub.problemId)
  | removed (hdeleted : Problem.Deleted s.log sub.contestId sub.problemId)
      (hrows : s.stores.database.rowsOf sub.id = [])

/-- What holds of submissions at any moment of a run that starts with the tables `start`. -/
structure Archived [LawfulContentStore κ] (start : Database) (writes : String → Prop)
    (s : Shared κ) : Prop extends Problem.Settled start s where
  numbered : ∀ e ∈ s.log, ∀ sub : Submission,
    e.exchange = ⟨.database (.insertSubmission sub), Except.ok ()⟩ → Drew s.log e.task sub.id
  fates : ∀ e ∈ s.log, ∀ sub : Submission,
    e.exchange = ⟨.database (.insertSubmission sub), Except.ok ()⟩ → Fate writes s sub
  /-- The code of a submission stays under its key. -/
  codes : ∀ e ∈ s.log, ∀ id body,
    e.exchange = ⟨.content (.put (codeKey id) body .createOnly), Except.ok ()⟩ →
      s.stores.texts (codeKey id) = some body

section Graded

variable {writes : String → Prop} {s : Shared κ} {sub : Submission}

/-- The grader leaves what was handed in. -/
theorem Fate.graded (h : Fate writes s sub) (id : Uuid) {g : Database.Grade}
    (results : List Database.ResultRow) (hwrites : writes g.status) :
    Fate writes (s.graded id g results) sub := by
  cases h with
  | removed hdeleted hrows =>
    refine .removed hdeleted ?_
    rw [Shared.graded_database, Database.rowsOf_grade, hrows]
    rfl
  | stands row hrows hkeeps hstatus hproblem =>
    have hgraded : (s.graded id g results).stores.database.rowsOf sub.id =
        [if row.id = id then row.graded g else row] := by
      rw [Shared.graded_database, Database.rowsOf_grade, hrows]
      rfl
    -- The row is graded if it is the one that the grader means.
    by_cases hrow : row.id = id
    · rw [if_pos hrow] at hgraded
      exact .stands _ hgraded (hkeeps.graded g) (Or.inr hwrites) hproblem
    · rw [if_neg hrow] at hgraded
      exact .stands row hgraded hkeeps hstatus hproblem

theorem Archived.graded [LawfulContentStore κ] {start : Database} (h : Archived start writes s)
    (id : Uuid) {g : Database.Grade} (results : List Database.ResultRow)
    (hwrites : writes g.status) : Archived start writes (s.graded id g results) where
  toSettled := h.toSettled.graded id g results
  numbered := h.numbered
  fates e he sub hinsert := (h.fates e he sub hinsert).graded id results hwrites
  codes := h.codes

end Graded

section Calls

variable [LawfulContentStore κ] {start : Database} {writes : String → Prop} {s : Shared κ}
  {r : Regime} {i : Nat} {operation : Operation} {call : Call} {answer : call.Answer}
  {stores : Stores κ} {next : call.Answer → StoreProgram (Except Fault Json)} {sub : Submission}

/-- A row that was inserted stays until its problem is deleted, and then it goes for good. -/
theorem Fate.after (h : Fate writes s sub) (hsettled : Problem.Settled start s)
    (hans : Answered r s call answer stores)
    (hinsert : ∀ sub' : Submission, (⟨call, answer⟩ : Exchange) =
      ⟨.database (.insertSubmission sub'), Except.ok ()⟩ → sub'.id ≠ sub.id)
    (hremove : ∀ contestId id, (⟨call, answer⟩ : Exchange) =
      ⟨.database (.removeProblem contestId id), Except.ok true⟩ →
        operation = .deleteProblem contestId id) :
    Fate writes (s.after ⟨i, operation, call, answer⟩ stores) sub := by
  cases call with
  | now | freshId | content =>
    have hsame := hans.database_of_other (fun _ => nofun)
    cases h with
    | removed hdeleted hrows =>
      refine .removed (Problem.deleted_append.mpr (Or.inl hdeleted)) ?_
      rw [Shared.after_stores, hsame, hrows]
    | stands row hrows hkeeps hstatus hproblem =>
      refine .stands row ?_ hkeeps hstatus ?_
      · rw [Shared.after_stores, hsame, hrows]
      · rw [Shared.after_stores, hsame]
        exact hproblem
  | database call =>
    have heffect := hans.effect.1
    -- A row that is inserted is one of another submission.
    have hother : ∀ sub' row, (⟨.database call, answer⟩ : Exchange) =
        ⟨.database (.insertSubmission sub'), Except.ok ()⟩ →
        Database.SubmissionRow.ofSubmission? sub' = some row →
          [row].filter (·.id == sub.id) = [] := by
      intro sub' row hexchange hrow
      have hid := (Database.SubmissionRow.of_ofSubmission? hrow).1
      simpa [hid] using hinsert sub' hexchange
    cases h with
    | removed hdeleted hrows =>
      refine .removed (Problem.deleted_append.mpr (Or.inl hdeleted)) ?_
      rw [Shared.after_stores]
      rcases heffect.rowsOf sub.id with hsame | ⟨sub', row, hexchange, hrow, hadded⟩ |
        ⟨_, _, -, hdropped⟩ | ⟨_, -, hdropped⟩
      · rw [hsame, hrows]
      · rw [hadded, hrows, hother sub' row hexchange hrow]
        rfl
      · rw [hdropped, hrows]
        rfl
      · rw [hdropped, hrows]
        rfl
    | stands row hrows hkeeps hstatus hproblem =>
      obtain ⟨-, -, hcontest, hproblemId, -⟩ := hkeeps.fields
      rcases heffect.hasProblemOf_or_removed hproblem with hstill | hremoved
      · refine .stands row ?_ hkeeps hstatus hstill
        rw [Shared.after_stores]
        rcases heffect.rowsOf sub.id with hsame | ⟨sub', row', hexchange, hrow, hadded⟩ |
          ⟨contestId, problemId, hexchange, hdropped⟩ | ⟨contestId, hempty, hdropped⟩
        · rw [hsame, hrows]
        · rw [hadded, hrows, hother sub' row' hexchange hrow]
          rfl
        · -- The problem that was removed is another one, since this one is still there.
          have hne : row.problemId ≠ problemId := by
            rintro rfl
            cases hexchange
            obtain ⟨hfound, hgone⟩ := heffect.not_hasProblemOf_removed
            rw [hproblemId] at hfound hgone
            have hsame := hsettled.one (hsettled.placed hfound) (hsettled.placed hproblem)
            rw [hsame] at hgone
            exact hgone hstill
          rw [hdropped, hrows]
          simp [hne]
        · -- The contest that was removed is another one, since this one has a problem.
          have hne : row.contestId ≠ contestId := by
            rintro rfl
            obtain ⟨q, hq, hplace, -⟩ := hproblem
            rw [List.any_eq_false] at hempty
            apply hempty q hq
            rw [hplace, hcontest]
            exact beq_self_eq_true _
          rw [hdropped, hrows]
          simp [hne]
      · cases hremoved
        refine .removed (Problem.deleted_append.mpr (Or.inr ⟨hremove _ _ rfl, rfl⟩)) ?_
        rw [Shared.after_stores, heffect.rowsOf_removeProblem, hrows]
        simp [hproblemId]

/-- The identifier of a row that is about to be inserted was drawn by the task, no other row was
    inserted under it, and the problem was found before. -/
theorem Archived.unused (h : Archived start writes s)
    {next : Except Fault Unit → StoreProgram (Except Fault Json)}
    (hleads : Leads operation.run.run (exchangesOf s.log i)
      (.ask (.database (.insertSubmission sub)) next)) :
    Drew s.log i sub.id ∧ Problem.Placed start s.log sub.contestId sub.problemId ∧
      ∀ e ∈ s.log, ∀ sub' : Submission,
        e.exchange = ⟨.database (.insertSubmission sub'), Except.ok ()⟩ → sub'.id ≠ sub.id := by
  obtain ⟨new, rfl⟩ := hleads.mayAsk.insertSubmission
  obtain ⟨problem, id, now, hsub, hexchanges⟩ := inserted_of_leads hleads
  have hid : sub.id = id := by
    rw [hsub]
    rfl
  have hdrew : Drew s.log i sub.id := by
    rw [hid]
    apply drew_of_exchange
    rw [hexchanges]
    simp
  have hplaced : Problem.Placed start s.log new.contestId new.problemId := by
    have hmem : ⟨.database (.findProblem new.contestId new.problemId),
        Except.ok (some problem)⟩ ∈ exchangesOf s.log i := by
      rw [hexchanges]
      simp
    obtain ⟨e, he, -, hfound⟩ := mem_exchangesOf.mp hmem
    exact (h.found e he _ _ _ hfound).1
  refine ⟨hdrew, ?_, fun e he sub' hinsert hsame => ?_⟩
  · rw [hsub]
    exact hplaced
  · -- It would be this task that inserted the other row, but so far it has inserted nothing.
    have hfirst := h.numbered e he sub' hinsert
    rw [hsame] at hfirst
    have hmem := h.mem_exchangesOf_drew hdrew he hfirst
    rw [hexchanges, hinsert] at hmem
    simp at hmem

/-- No call writes under the key of code that is kept. -/
theorem Archived.code_after (h : Archived start writes s)
    (hleads : Leads operation.run.run (exchangesOf s.log i) (.ask call next))
    (hans : Answered r s call answer stores) {id : Uuid} {body : String}
    (hcode : s.stores.texts (codeKey id) = some body) :
    stores.texts (codeKey id) = some body := by
  cases call with
  | now | freshId | database =>
    rw [hans.content_of_other (fun _ => nofun)]
    exact hcode
  | content call =>
    by_cases hkey : call.key = codeKey id
    · by_cases hreads : (Call.content call).reads = true
      · rw [(hans.kept_of_reads hreads).texts]
        exact hcode
      · rcases Operation.key_of_leads hleads (Bool.eq_false_iff.mpr hreads) with
          ⟨c, p, hstatement⟩ | ⟨c, p, q, hq, hstatement⟩ | ⟨id', body', rfl⟩
        · exact absurd (hkey.symm.trans hstatement) (codeKey_ne_keyOf id c p)
        · -- A problem that was found has the key of its own statement.
          obtain ⟨e, he, -, hfound⟩ := mem_exchangesOf.mp hq
          have hown := (h.found e he c p q hfound).2
          exact absurd (hkey.symm.trans (hstatement.trans hown)) (codeKey_ne_keyOf id c p)
        · -- Code is only created, and here there is some already.
          have hsame : codeKey id' = codeKey id := hkey
          cases answer with
          | error fault => exact (congrFun hans.content_error.2.1 _).trans hcode
          | ok _ =>
            have hnone := Content.Map.eq_none_of_answer_create_ok hans.content_ok.1
            rw [hsame] at hnone
            exact nomatch hnone.symm.trans hcode
    · rw [hans.texts_other hkey]
      exact hcode

/-- A row that is inserted is the only one of its submission, and its problem is there. -/
theorem Archived.fate_inserted (h : Archived start writes s)
    {next : Except Fault Unit → StoreProgram (Except Fault Json)}
    (hleads : Leads operation.run.run (exchangesOf s.log i)
      (.ask (.database (.insertSubmission sub)) next))
    (hans : Answered r s (.database (.insertSubmission sub)) (Except.ok ()) stores) :
    Fate writes (s.after ⟨i, operation, .database (.insertSubmission sub), Except.ok ()⟩ stores)
      sub := by
  obtain ⟨-, hplaced, -⟩ := h.unused hleads
  obtain ⟨hok, hdatabase, -⟩ := hans.database_ok
  obtain ⟨hproblem, hfree, row, hrow, hadded⟩ := Database.insertSubmission_ok hok
  obtain ⟨hid, -, hstatus⟩ := Database.SubmissionRow.of_ofSubmission? hrow
  rw [hadded] at hdatabase
  refine .stands row ?_ (Database.SubmissionRow.keeps_of_ofSubmission? hrow) (Or.inl hstatus) ?_
  · rw [Shared.after_stores, hdatabase]
    unfold Database.rowsOf at hfree ⊢
    simp [List.filter_append, hfree, hid]
  · rw [Shared.after_stores, hdatabase]
    -- The problem with the identifier is the one that was found, since there is only one.
    obtain ⟨q, hq, hqid⟩ := List.any_eq_true.mp hproblem
    rw [beq_iff_eq] at hqid
    have hsame := h.one (h.placed ⟨q, hq, rfl, hqid⟩) hplaced
    exact ⟨q, hq, hsame, hqid⟩

/-- Every call keeps it so. -/
theorem Archived.after (h : Archived start writes s) (hnew : Problem.DrawsNew start s.log)
    (hleads : Leads operation.run.run (exchangesOf s.log i) (.ask call next))
    (hans : Answered r s call answer stores) :
    Archived start writes (s.after ⟨i, operation, call, answer⟩ stores) where
  toSettled := h.toSettled.after hnew hleads hans
  numbered := by
    intro e he sub hinsert
    apply drew_append.mpr
    left
    rcases List.mem_append.mp he with hold | hlast
    · exact h.numbered e hold sub hinsert
    · rw [List.mem_singleton.mp hlast] at hinsert ⊢
      cases hinsert
      exact (h.unused hleads).1
  fates := by
    intro e he sub hinsert
    rcases List.mem_append.mp he with hold | hlast
    · refine (h.fates e hold sub hinsert).after h.toSettled hans (fun sub' hexchange => ?_)
        fun contestId id hexchange => ?_
      · cases hexchange
        exact ((h.unused hleads).2.2 e hold sub hinsert).symm
      · cases hexchange
        exact hleads.mayAsk.removeProblem
    · rw [List.mem_singleton.mp hlast] at hinsert
      cases hinsert
      exact h.fate_inserted hleads hans
  codes := by
    intro e he id body hput
    rcases List.mem_append.mp he with hold | hlast
    · exact h.code_after hleads hans (h.codes e hold id body hput)
    · rw [List.mem_singleton.mp hlast] at hput
      cases hput
      obtain ⟨hok, -, htexts⟩ := hans.content_ok
      have hwritten := htexts.trans (Content.Map.answer_put_ok hok)
      rw [Shared.after_stores, Stores.texts, hwritten, Function.update_self]

end Calls

/-! ## After a submission was created -/

section Runs

variable [LawfulContentStore κ] {r : Regime} {writes : String → Prop} {stores : Stores κ}
  {P : Pool κ}

theorem Archived.of_start {stores : Stores κ} (h : stores.database.Orderly) :
    Archived stores.database writes (⟨stores, []⟩ : Shared κ) where
  toSettled := .of_start h
  numbered _ he := absurd he List.not_mem_nil
  fates _ he := absurd he List.not_mem_nil
  codes _ he := absurd he List.not_mem_nil

theorem archived_of_reachable (horderly : stores.database.Orderly)
    (hreach : GradedReachable r writes (Pool.initial stores) P)
    (hnew : Problem.DrawsNew stores.database P.log) :
    Archived stores.database writes P.toShared := by
  -- An identifier that is drawn new at the end was drawn new all along.
  refine hreach.invariant
    (I := fun s => Problem.DrawsNew stores.database s.log → Archived stores.database writes s)
    (fun _ => .of_start horderly) ?_ ?_ hnew
  · intro s i operation call next answer stores' h _ hleads hans hdraws
    have hbefore : Problem.DrawsNew stores.database s.log := hdraws.of_append
    exact (h hbefore).after hbefore hleads hans
  · intro s id g results h hwrites hdraws
    exact (h hdraws).graded id results hwrites

/-- The row of a submission is there as it was handed in, but for what the grader wrote, and the
    submission is shown with its code as long as the grader writes names of states. -/
structure OnRecord (writes : String → Prop) (stores : Stores κ) (s : Submission)
    (code : Option String) (row : Database.SubmissionRow) : Prop where
  only : stores.database.rowsOf s.id = [row]
  keeps : row.Keeps s
  status : row.status = s.state.name ∨ writes row.status
  details : ∀ state, SubmissionState.ofText? row.status = some state →
    (stores.perform (details s.id)).1 =
      .ok ⟨s.asGraded row state, code, stores.database.resultsOf s.id⟩
  shown : (∀ text, writes text → ∃ state, SubmissionState.ofText? text = some state) →
    ∃ state, (stores.perform (Submission.details s.id)).1 =
      .ok ⟨s.asGraded row state, code, stores.database.resultsOf s.id⟩

/-- There is no submission with an identifier. -/
structure Gone (stores : Stores κ) (id : Uuid) : Prop where
  none : stores.database.rowsOf id = []
  status : (stores.perform (status id)).1 = .error (missing id)
  details : (stores.perform (details id)).1 = .error (missing id)

/-- A submission of which the row was inserted, and the code if it is code, is on record; or its
    problem was deleted and it is gone. -/
theorem Archived.onRecord_or_gone {start : Database} {s : Shared κ} (h : Archived start writes s)
    {sub : Submission} {code : Option String}
    (hinsert : ∃ e ∈ s.log,
      e.exchange = ⟨.database (.insertSubmission sub), Except.ok ()⟩)
    (hcode : match sub.kind with
      | .mcq => code = none
      | .code => ∃ body, code = some body ∧ ∃ e ∈ s.log,
        e.exchange = ⟨.content (.put (codeKey sub.id) body .createOnly), Except.ok ()⟩) :
    (¬ Problem.Deleted s.log sub.contestId sub.problemId ∧
      ∃ row, OnRecord writes s.stores sub code row) ∨
    (Problem.Deleted s.log sub.contestId sub.problemId ∧ Gone s.stores sub.id) := by
  obtain ⟨e, he, hexchange⟩ := hinsert
  cases h.fates e he sub hexchange with
  | removed hdeleted hrows =>
    right
    exact ⟨hdeleted, hrows, perform_status_of_gone hrows, perform_details_of_gone hrows⟩
  | stands row hrows hkeeps hstatus hproblem =>
    left
    have hdetails : ∀ state, SubmissionState.ofText? row.status = some state →
        (s.stores.perform (details sub.id)).1 =
          .ok ⟨sub.asGraded row state, code, s.stores.database.resultsOf sub.id⟩ := by
      intro state hstate
      apply perform_details hrows hkeeps hstate
      cases hkind : sub.kind with
      | mcq =>
        rw [hkind] at hcode
        exact hcode
      | code =>
        -- The code was put there when the submission was created, and it still is.
        rw [hkind] at hcode
        obtain ⟨body, hbody, e', he', hput⟩ := hcode
        exact ⟨body, hbody, h.codes e' he' sub.id body hput⟩
    refine ⟨fun hdeleted => (h.deleted hdeleted).2 hproblem, row, hrows, hkeeps, hstatus, hdetails,
      fun hwrites => ?_⟩
    have hread : ∃ state, SubmissionState.ofText? row.status = some state := by
      rcases hstatus with hown | hgraded
      · rw [hown]
        exact ⟨sub.state, sub.state.ofText?_name⟩
      · exact hwrites row.status hgraded
    obtain ⟨state, hstate⟩ := hread
    exact ⟨state, hdetails state hstate⟩

/-- After a submission was created, whatever runs and fails and is cancelled, and whatever the
    grader does: as long as its problem is not deleted, its row is there with all that was stored,
    and it is shown with the code that was handed in, or without code and with the choices that were
    handed in. From the moment when its problem is deleted it is not found any more. -/
theorem kept_as_handed_in (horderly : stores.database.Orderly)
    (hreach : GradedReachable r writes (Pool.initial stores) P) {i : Nat} {userId : Uuid}
    {new : NewSubmission} {json : Json}
    (htask : P.tasks[i]? = some ⟨.createSubmission userId new, some (succeeded json)⟩) :
    ∃ s : Submission, json = s.toJson ∧ s = ofNew s.id userId s.createdAt new ∧
      (new.kind = .code → ∃ body, new.code = some body) ∧
      ∀ P', GradedReachable r writes P P' → Problem.DrawsNew stores.database P'.log →
        (¬ Problem.Deleted P'.log s.contestId s.problemId ∧
          ∃ row, OnRecord writes P'.stores s new.keptCode row) ∨
        (Problem.Deleted P'.log s.contestId s.problemId ∧
          ∀ P'', GradedReachable r writes P' P'' → Problem.DrawsNew stores.database P''.log →
            Gone P''.stores s.id) := by
  obtain ⟨problem, id, now, rfl, -, hinsert, hcode⟩ :=
    created_of_leads (hreach.traced.leads htask)
  obtain ⟨e, he, -, hexchange⟩ := mem_exchangesOf.mp hinsert
  -- What was done until the submission was created is in the log at any later moment.
  have hlater : ∀ P', GradedReachable r writes P P' → Problem.DrawsNew stores.database P'.log →
      (¬ Problem.Deleted P'.log new.contestId new.problemId ∧
        ∃ row, OnRecord writes P'.stores (ofNew id userId now new) new.keptCode row) ∨
      (Problem.Deleted P'.log new.contestId new.problemId ∧ Gone P'.stores id) := by
    intro P' hreach' hnew
    have harchived := archived_of_reachable horderly (hreach.trans hreach') hnew
    apply harchived.onRecord_or_gone ⟨e, hreach'.mem_log he, hexchange⟩
    have hkind : (ofNew id userId now new).kind = new.kind := rfl
    rw [hkind]
    cases hcase : new.kind with
    | mcq =>
      rw [hcase] at hcode
      exact hcode
    | code =>
      rw [hcase] at hcode
      obtain ⟨body, hbody, hput⟩ := hcode
      obtain ⟨e', he', -, hexchange'⟩ := mem_exchangesOf.mp hput
      exact ⟨body, hbody, e', hreach'.mem_log he', hexchange'⟩
  refine ⟨ofNew id userId now new, rfl, rfl, fun hkind => ?_, fun P' hreach' hnew => ?_⟩
  · rw [hkind] at hcode
    obtain ⟨body, hbody, -⟩ := hcode
    simp only [NewSubmission.keptCode, hkind] at hbody
    exact ⟨body, hbody⟩
  · apply (hlater P' hreach' hnew).imp_right
    rintro ⟨hdeleted, -⟩
    refine ⟨hdeleted, fun P'' hreach'' hnew'' => ?_⟩
    -- The deletion stays in the log, so the submission is not on record again.
    obtain ⟨e', he', hdeletion⟩ := hdeleted
    have hstill : Problem.Deleted P''.log new.contestId new.problemId :=
      ⟨e', hreach''.mem_log he', hdeletion⟩
    rcases hlater P'' (hreach'.trans hreach'') hnew'' with ⟨hnot, -⟩ | ⟨-, hgone⟩
    · exact absurd hstill hnot
    · exact hgone

end Runs

/-! ## A submission that is graded -/

/-- Anything may run, fail and be cancelled. -/
def unrestrained : Regime where
  admits _ := True
  mayFail _ := True
  mayCancel := True

/-- A problem that asks for code. -/
def codeProblem : Problem where
  id := .ofNat 2
  contestId := .ofNat 1
  name := "Echo"
  contentKey := Problem.keyOf (.ofNat 1) (.ofNat 2)
  score := 10
  kind := .code
  hasMultipleAnswers := false
  answer := []

/-- Stores with a user and a problem. -/
def codeStores : Stores Content.Memory where
  now := default
  ids := .initial
  database := { Database.empty with
    users := [{ (default : UserProfile) with id := .ofNat 7 }]
    contests := [{ (default : Database.ContestRow) with id := .ofNat 1 }]
    problems := [codeProblem] }
  content := .empty

/-- Code for the problem. -/
def echoCode : NewSubmission :=
  ⟨.ofNat 1, .ofNat 2, .code, some "sh", some "cat", []⟩

/-- Code is handed in, and then it is graded. -/
private theorem reachable_graded :
    ∃ (P P' : Pool Content.Memory) (json : Json),
      GradedReachable unrestrained (· = "accepted") (Pool.initial codeStores) P ∧
      GradedReachable unrestrained (· = "accepted") P P' ∧
      P.tasks[0]? = some ⟨.createSubmission (.ofNat 7) echoCode, some (succeeded json)⟩ ∧
      Problem.DrawsNew codeStores.database P'.log ∧
      ¬ Problem.Deleted P'.log (.ofNat 1) (.ofNat 2) ∧
      ∀ row ∈ P'.stores.database.submissions, row.status = "accepted" := by
  refine ⟨_, _, _, .of_reachable (.tail (.tail (.tail (.tail (.tail (.tail .refl
    (.begin_ _ (.createSubmission (.ofNat 7) echoCode) trivial))
    (.call (i := 0) _ rfl (.database _ fun _ => trivial)))
    (.call (i := 0) _ rfl (.fresh (.ofNat 3) ?_)))
    (.call (i := 0) _ rfl (.clock ⟨1704067200, 0⟩)))
    (.call (i := 0) _ rfl (.database _ fun _ => trivial)))
    (.call (i := 0) _ rfl (.content _ fun _ => trivial))),
    .tail .refl (.grade _ (.ofNat 3) ⟨"accepted", some 12, some 2048⟩ [] rfl), rfl, ?_, ?_, ?_⟩
  · -- Only the problem was looked for before the identifier is drawn.
    rintro task ⟨e, he, -, h⟩
    rcases he with _ | ⟨_, ⟨⟩⟩
    exact nomatch h
  · intro e he id hdrawn
    iterate 5
      rcases he with _ | ⟨_, he⟩
      · cases hdrawn <;> rfl
    exact nomatch he
  · rintro ⟨e, he, h, -⟩
    iterate 5
      rcases he with _ | ⟨_, he⟩
      · exact nomatch h
    exact nomatch he
  · intro row hrow
    rcases hrow with _ | ⟨_, ⟨⟩⟩
    rfl

/-- Code that was handed in and graded is shown as it was handed in. -/
theorem shown_when_graded :
    ∃ (P : Pool Content.Memory) (s : Submission) (row : Database.SubmissionRow),
      GradedReachable unrestrained (· = "accepted") (Pool.initial codeStores) P ∧
      (P.stores.perform (details s.id)).1 =
        .ok ⟨s.asGraded row .accepted, some "cat", P.stores.database.resultsOf s.id⟩ := by
  obtain ⟨P, P', json, hreach, hlater, htask, hnew, hkept, hgraded⟩ := reachable_graded
  have horderly : codeStores.database.Orderly := by
    constructor
    · intro p hp
      rw [List.mem_singleton.mp hp]
      rfl
    · intro p hp q hq _
      rw [List.mem_singleton.mp hp, List.mem_singleton.mp hq]
  obtain ⟨s, -, hs, -, hafter⟩ := kept_as_handed_in horderly hreach htask
  rcases hafter P' hlater hnew with ⟨-, row, hrow⟩ | ⟨hdeleted, -⟩
  · have hmem : row ∈ P'.stores.database.rowsOf s.id := by
      rw [hrow.only]
      exact List.mem_singleton_self row
    have hstatus := hgraded row (List.mem_filter.mp hmem).1
    refine ⟨P', s, row, hreach.trans hlater, hrow.details .accepted ?_⟩
    rw [hstatus]
    rfl
  · rw [hs] at hdeleted
    exact absurd hdeleted hkept

end Submission

end ContestPlatform
