import ContestPlatform.Proofs.InTurn
import ContestPlatform.Proofs.StatementBystanders
import ContestPlatform.Proofs.SubmissionRecords

/-!
# What the content store keeps

If no call fails, the content store keeps two kinds of texts when no operation is in progress: the
statements of the problems that there are, and the code of every submission that was accepted. A
statement goes with its problem. Code never goes: when a problem is deleted, the database removes
the rows of its submissions on its own, and no operation asks for their code any more. So the code
without a row is that of the submissions whose problem was deleted.
-/

namespace ContestPlatform

open Interleaving

/-- Anything may run, nothing fails and nothing is cancelled. -/
def faultless : Regime where
  admits _ := True
  mayFail _ := False
  mayCancel := False

namespace Submission

/-! ## What a task did before it was done -/

section Leads

variable {userId : Uuid} {new : NewSubmission} {exchanges : List Exchange}
  {q : StoreProgram (Except Fault Json)} {key body : String} {mode : Content.PutMode}

private theorem written_of_recordCalls {code : Option String}
    (h : Leads (recordCalls userId new code) exchanges q)
    (hput : ⟨.content (.put key body mode), Except.ok ()⟩ ∈ exchanges) :
    ∃ id now, q = succeeded (ofNew id userId now new).toJson ∧ key = codeKey id ∧
      code = some body := by
  cases h with
  | here => exact absurd hput List.not_mem_nil
  | @on _ _ id _ _ h =>
  cases h with
  | here => simp at hput
  | @on _ _ now _ _ h =>
  cases h with
  | here => simp at hput
  | @on _ _ inserted _ _ h =>
  rcases inserted with fault | _
  · obtain ⟨rfl, -⟩ := h.of_done
    simp at hput
  cases code with
  | none =>
    obtain ⟨rfl, -⟩ := h.of_done
    simp at hput
  | some body' =>
    cases h with
    | here => simp at hput
    | @on _ _ stored _ _ h =>
      rcases stored with fault | _
      · obtain ⟨rfl, -⟩ := h.of_done
        simp at hput
      · -- The code was written, which is the last call.
        obtain ⟨rfl, hdone⟩ := h.of_done
        have hcall : Call.content (.put key body mode) =
            .content (.put (codeKey id) body' .createOnly) := by
          simp only [List.mem_cons, List.not_mem_nil, or_false, reduceCtorEq, Exchange.mk.injEq,
            false_and, false_or] at hput
          exact hput.1
        simp only [Call.content.injEq, Content.Call.put.injEq] at hcall
        obtain ⟨rfl, rfl, -⟩ := hcall
        exact ⟨id, now, hdone, rfl, rfl⟩

/-- A creation that has written code is done: the submission was accepted, and the code is what was
    handed in. -/
theorem accepted_of_leads (h : Leads (Operation.createSubmission userId new).run.run exchanges q)
    (hput : ⟨.content (.put key body mode), Except.ok ()⟩ ∈ exchanges) :
    ∃ id now, q = succeeded (ofNew id userId now new).toJson ∧ key = codeKey id ∧
      new.kind = .code ∧ new.code = some body := by
  have hproblem : ∀ code, Leads (problemCalls userId new code) exchanges q →
      ∃ id now, q = succeeded (ofNew id userId now new).toJson ∧ key = codeKey id ∧
        code = some body := by
    intro code h
    cases h with
    | here => exact absurd hput List.not_mem_nil
    | @on _ _ found rest _ h =>
      have hrest : ⟨.content (.put key body mode), Except.ok ()⟩ ∈ rest := by simpa using hput
      rcases found with fault | (_ | problem)
      · obtain ⟨rfl, -⟩ := h.of_done
        exact absurd hrest List.not_mem_nil
      · obtain ⟨rfl, -⟩ := h.of_done
        exact absurd hrest List.not_mem_nil
      · dsimp only at h
        split at h
        · exact written_of_recordCalls h hrest
        · obtain ⟨rfl, -⟩ := h.of_done
          exact absurd hrest List.not_mem_nil
  rw [calls_create] at h
  cases hkind : new.kind with
  | mcq =>
    simp only [hkind] at h
    obtain ⟨id, now, -, -, hcode⟩ := hproblem none h
    exact nomatch hcode
  | code =>
    cases hcode : new.code with
    | none =>
      simp only [hkind, hcode] at h
      obtain ⟨rfl, -⟩ := h.of_done
      exact absurd hput List.not_mem_nil
    | some body' =>
      simp only [hkind, hcode] at h
      obtain ⟨id, now, hdone, hkey, hbody⟩ := hproblem _ h
      exact ⟨id, now, hdone, hkey, rfl, hbody⟩

end Leads

/-- Code is written by the creation of a submission only. -/
theorem createSubmission_of_mayAsk {operation : Operation} {id : Uuid} {body : String}
    {mode : Content.PutMode} (h : operation.MayAsk (.content (.put (codeKey id) body mode)))
    (hmode : mode = .createOnly) : ∃ userId new, operation = .createSubmission userId new := by
  subst hmode
  rcases h with hreads | hwrites
  · exact nomatch hreads
  cases operation with
  | createSubmission userId new => exact ⟨userId, new, rfl⟩
  | createProblem contestId new =>
    obtain ⟨problem, hkey⟩ := hwrites
    exact absurd hkey (codeKey_ne_keyOf id contestId problem)
  | _ => exact False.elim hwrites

/-! ## Any moment of a run -/

variable {κ : Type}

/-- Code was written under the key of a submission. -/
def Wrote (log : List Event) (id : Uuid) (body : String) : Prop :=
  ∃ e ∈ log, e.exchange = ⟨.content (.put (codeKey id) body .createOnly), Except.ok ()⟩

/-- Every text is kept under the key of a statement, or is code that was written. -/
def Sourced [LawfulContentStore κ] (s : Shared κ) : Prop :=
  ∀ key text, s.stores.texts key = some text →
    (∃ contestId id, key = Problem.keyOf contestId id) ∨
      ∃ id, key = codeKey id ∧ Wrote s.log id text

theorem Wrote.append {log : List Event} {id : Uuid} {body : String} (h : Wrote log id body)
    (e : Event) : Wrote (log ++ [e]) id body := by
  obtain ⟨e', he', hput⟩ := h
  exact ⟨e', List.mem_append_left _ he', hput⟩

/-- Every call keeps it so. -/
theorem Sourced.after [LawfulContentStore κ] {r : Regime} {s : Shared κ} {start : Database}
    {i : Nat} {operation : Operation} {call : Call} {answer : call.Answer} {stores : Stores κ}
    {next : call.Answer → StoreProgram (Except Fault Json)} (h : Sourced s)
    (hsettled : Problem.Settled start s)
    (hleads : Leads operation.run.run (exchangesOf s.log i) (.ask call next))
    (hans : Answered r s call answer stores) :
    Sourced (s.after ⟨i, operation, call, answer⟩ stores) := by
  intro key text htext
  rw [Shared.after_stores] at htext
  have hold : s.stores.texts key = some text →
      (∃ contestId id, key = Problem.keyOf contestId id) ∨
        ∃ id, key = codeKey id ∧ Wrote (s.log ++ [⟨i, operation, call, answer⟩]) id text := by
    intro hbefore
    apply (h key text hbefore).imp_right
    rintro ⟨id, hkey, hwrote⟩
    exact ⟨id, hkey, hwrote.append _⟩
  cases call with
  | now | freshId | database =>
    rw [hans.content_of_other (fun _ => nofun)] at htext
    exact hold htext
  | content call =>
    by_cases hkey : call.key = key
    · by_cases hreads : (Call.content call).reads = true
      · rw [(hans.kept_of_reads hreads).texts] at htext
        exact hold htext
      · rcases Operation.key_of_leads hleads (Bool.eq_false_iff.mpr hreads) with
          ⟨c, p, hstatement⟩ | ⟨c, p, q, hq, hstatement⟩ | ⟨id, body, rfl⟩
        · exact Or.inl ⟨c, p, hkey.symm.trans hstatement⟩
        · -- A problem that was found has the key of its own statement.
          obtain ⟨e, he, -, hfound⟩ := mem_exchangesOf.mp hq
          have hown := (hsettled.found e he c p q hfound).2
          exact Or.inl ⟨c, p, hkey.symm.trans (hstatement.trans hown)⟩
        · cases answer with
          | error fault =>
            rw [hans.kept_of_content_error.texts] at htext
            exact hold htext
          | ok _ =>
            obtain ⟨hok, -, htexts⟩ := hans.content_ok
            have hcode : key = codeKey id := hkey.symm
            have hwritten := htexts.trans (Content.Map.answer_put_ok hok)
            rw [Stores.texts, hwritten, hcode, Function.update_self, Option.some_inj] at htext
            subst htext
            exact Or.inr ⟨id, hcode, _, List.mem_append_right _ List.mem_cons_self, rfl⟩
    · rw [hans.texts_other hkey] at htext
      exact hold htext

/-! ## When no operation is in progress -/

section Runs

variable [LawfulContentStore κ] {r : Regime} {stores : Stores κ} {P : Pool κ}

omit [LawfulContentStore κ] in
theorem orderly_of_no_problems (hproblems : stores.database.problems = []) :
    stores.database.Orderly := by
  constructor
  case keyed =>
    intro p hp
    rw [hproblems] at hp
    exact absurd hp List.not_mem_nil
  case distinct =>
    intro p hp
    rw [hproblems] at hp
    exact absurd hp List.not_mem_nil

omit [LawfulContentStore κ] in
theorem drawsNew_of_no_problems (hproblems : stores.database.problems = []) (log : List Event) :
    Problem.DrawsNew stores.database log := by
  intro e he id hdrawn
  rw [Database.hasProblem, hproblems]
  rfl

/-- Where nothing fails, the database rejects no row of a problem. -/
theorem not_rejected (hreach : Reachable faultless (Pool.initial stores) P) {contestId id : Uuid}
    {text : String} : ¬ Statements.Rejected P.log contestId id text := by
  have hnone : ∀ e ∈ P.log, ∀ p fault,
      e.exchange ≠ ⟨.database (.insertProblem p), Except.error fault⟩ := by
    refine hreach.invariant (I := fun s => ∀ e ∈ s.log, ∀ p fault,
      e.exchange ≠ ⟨.database (.insertProblem p), Except.error fault⟩)
      (fun e he => absurd he List.not_mem_nil) ?_
    intro s i operation call next answer stores' ih _ _ hans e he p fault hinsert
    rcases List.mem_append.mp he with hold | hlast
    · exact ih e hold p fault hinsert
    · rw [List.mem_singleton.mp hlast] at hinsert
      cases hinsert
      rcases hans.database_error.2 with hmay | ⟨-, hkind⟩
      · exact hmay
      · exact hkind hans.effect.1.kind_of_insertProblem
  rintro ⟨task, new, row, fault, -, -, -, hinsert⟩
  exact hnone _ hinsert row fault rfl

/-- The row of a submission is there until its problem is deleted. -/
theorem Archived.hasSubmission_iff {start : Database} {writes : String → Prop} {s : Shared κ}
    (h : Archived start writes s) {sub : Submission}
    (hinsert : ∃ e ∈ s.log, e.exchange = ⟨.database (.insertSubmission sub), Except.ok ()⟩) :
    s.stores.database.hasSubmission sub.id = true ↔
      ¬ Problem.Deleted s.log sub.contestId sub.problemId := by
  obtain ⟨e, he, hexchange⟩ := hinsert
  cases h.fates e he sub hexchange with
  | stands row hrows _ _ hproblem =>
    have hthere : s.stores.database.hasSubmission sub.id ≠ false := by
      rw [Ne, ← Database.rowsOf_eq_nil, hrows]
      exact List.cons_ne_nil _ _
    exact ⟨fun _ hdeleted => (h.deleted hdeleted).2 hproblem,
      fun _ => Bool.eq_true_of_not_eq_false hthere⟩
  | removed hdeleted hrows =>
    rw [Database.rowsOf_eq_nil.mp hrows]
    exact ⟨nofun, fun hnot => absurd hdeleted hnot⟩

/-- A task has created a submission, which is what it gave back. -/
def Accepted (P : Pool κ) (new : NewSubmission) (s : Submission) : Prop :=
  ∃ (i : Nat) (userId : Uuid),
    P.tasks[i]? = some ⟨.createSubmission userId new, some (succeeded s.toJson)⟩ ∧
      s = ofNew s.id userId s.createdAt new

theorem id_of_toJson {s s' : Submission} (h : s.toJson = s'.toJson) : s.id = s'.id := by
  have hmembers : s.members = s'.members := Json.object.inj h
  have hhead := congrArg List.head? hmembers
  simp only [members, List.cons_append, List.head?_cons, Option.some.injEq, Prod.mk.injEq,
    true_and] at hhead
  exact Uuid.text_injective (Json.text.inj hhead)

omit [LawfulContentStore κ] in
/-- A submission that was accepted has had its row inserted, and its code was written if it is
    code. -/
theorem written_of_accepted (htraced : Traced r P) {new : NewSubmission} {s : Submission}
    (h : Accepted P new s) : ∃ sub : Submission, sub.id = s.id ∧ sub.contestId = s.contestId ∧
      sub.problemId = s.problemId ∧
      (∃ e ∈ P.log, e.exchange = ⟨.database (.insertSubmission sub), Except.ok ()⟩) ∧
      (new.kind = .code → ∃ body, new.code = some body ∧ Wrote P.log s.id body) := by
  obtain ⟨i, userId, htask, hs⟩ := h
  obtain ⟨problem, id, now, hjson, -, hinsert, hcode⟩ := created_of_leads (htraced.leads htask)
  have hid : s.id = id := id_of_toJson hjson
  have hcontest : s.contestId = new.contestId := congrArg Submission.contestId hs
  have hproblem : s.problemId = new.problemId := congrArg Submission.problemId hs
  obtain ⟨e, he, -, hexchange⟩ := mem_exchangesOf.mp hinsert
  refine ⟨ofNew id userId now new, hid.symm, hcontest.symm, hproblem.symm, ⟨e, he, hexchange⟩,
    fun hkind => ?_⟩
  rw [hkind] at hcode
  obtain ⟨body, hbody, hput⟩ := hcode
  simp only [NewSubmission.keptCode, hkind] at hbody
  obtain ⟨e', he', -, hexchange'⟩ := mem_exchangesOf.mp hput
  rw [hid]
  exact ⟨body, hbody, e', he', hexchange'⟩

omit [LawfulContentStore κ] in
/-- Code that was written was accepted with a submission. -/
theorem accepted_of_wrote (htraced : Traced r P)
    (hdone : ∀ (i : Nat) (t : Task), P.tasks[i]? = some t →
      ∃ result, t.rest = some (.done result))
    {id : Uuid} {body : String} (h : Wrote P.log id body) :
    ∃ new s, Accepted P new s ∧ s.id = id ∧ new.kind = .code ∧ new.code = some body := by
  obtain ⟨e, he, hput⟩ := h
  obtain ⟨⟨operation, rest⟩, htask, -⟩ := htraced.owned e he
  obtain ⟨result, rfl⟩ : ∃ result, rest = some (.done result) := hdone _ _ htask
  have hleads := htraced.leads htask
  have hmem : ⟨.content (.put (codeKey id) body .createOnly), Except.ok ()⟩ ∈
      exchangesOf P.log e.task := mem_exchangesOf.mpr ⟨e, he, rfl, hput⟩
  obtain ⟨userId, new, rfl⟩ :=
    createSubmission_of_mayAsk (hleads.asked operation.within_run hmem) rfl
  obtain ⟨id', now, hresult, hkey, hcode⟩ := accepted_of_leads hleads hmem
  obtain rfl := codeKey_inj.mp hkey
  exact ⟨new, ofNew id userId now new, ⟨e.task, userId, hresult ▸ htask, rfl⟩, rfl, hcode⟩

/-- At any moment of a run that starts without problems and texts, every text has a source. -/
theorem sourced_of_reachable (hproblems : stores.database.problems = [])
    (hempty : ∀ key, stores.texts key = none) (hreach : Reachable r (Pool.initial stores) P) :
    Sourced P.toShared := by
  have hall : Problem.Settled stores.database P.toShared ∧ Sourced P.toShared := by
    apply hreach.invariant (I := fun s => Problem.Settled stores.database s ∧ Sourced s)
    · refine ⟨.of_start (orderly_of_no_problems hproblems), fun key text htext => ?_⟩
      exact nomatch (hempty key).symm.trans htext
    · intro s i operation call next answer stores' ih _ hleads hans
      have hnew := drawsNew_of_no_problems hproblems s.log
      exact ⟨ih.1.after hnew hleads hans, ih.2.after ih.1 hleads hans⟩
  exact hall.2

/-- The tasks of all operations keep to the protocol of the writers of problems. -/
theorem sound_of_reachable (hproblems : stores.database.problems = [])
    (hempty : ∀ key, stores.texts key = none) (hreach : Reachable r (Pool.initial stores) P) :
    (Statements.protocol κ).Sound r
      (fun i _ s => Statements.OnlyInsertsFail r → Statements.Free i s) P := by
  apply Protocol.sound _ (Statements.inv_start hproblems hempty) hreach
  exact fun i operation _ => Statements.walks_run operation

/-- When no operation is in progress, a statement that is kept is that of a problem. -/
theorem problem_of_statement (hproblems : stores.database.problems = [])
    (hempty : ∀ key, stores.texts key = none) (hreach : Reachable faultless (Pool.initial stores) P)
    (hover : ∀ t ∈ P.tasks, t.IsOver) {contestId id : Uuid} {text : String}
    (htext : P.stores.texts (Problem.keyOf contestId id) = some text) :
    ∃ p ∈ P.stores.database.problems, p.contentKey = Problem.keyOf contestId id := by
  have hsound := sound_of_reachable hproblems hempty hreach
  have hinv : Statements.Inv P.toShared := hsound.inv
  rcases hinv.covered htext with ⟨p, hp, rfl, rfl⟩ | ⟨i, howes⟩ | hrejected
  · exact ⟨p, hp, hinv.keyed p hp⟩
  · -- A task that is over has no statement to look after, and neither has one that was not begun.
    rcases Nat.lt_or_ge i P.tasks.length with hi | hi
    · have htask : P.tasks[i]? = some P.tasks[i] := List.getElem?_eq_getElem hi
      obtain ⟨result, -, hfree⟩ :=
        hsound.known_of_isOver (fun h => h) htask (hover _ (List.getElem_mem hi))
      exact absurd howes (hfree (fun _ hmay => hmay.elim) contestId id)
    · have hidle : Statements.debt P.log i = none := by
        apply Statements.debt_eq_none
        intro e he htask
        have hlt := hsound.numbered e he
        omega
      exact nomatch hidle.symm.trans howes
  · exact absurd hrejected (not_rejected hreach)

/-- If nothing fails, then whenever no operation is in progress the content store keeps the
    statements of the problems that there are, and the code of the submissions that were accepted in
    the run, and nothing else. The code of an accepted submission is there for good; its row is
    there exactly until its problem is deleted. -/
theorem left_content (hproblems : stores.database.problems = [])
    (hempty : ∀ key, stores.texts key = none)
    (hreach : Reachable faultless (Pool.initial stores) P) (hover : ∀ t ∈ P.tasks, t.IsOver) :
    (∀ key text, P.stores.texts key = some text →
      (∃ p ∈ P.stores.database.problems, p.contentKey = key) ∨
      ∃ new s, Accepted P new s ∧ key = codeKey s.id ∧ new.kind = .code ∧ new.code = some text) ∧
    ∀ new s, Accepted P new s →
      (new.kind = .code → ∃ body, new.code = some body ∧
        P.stores.texts (codeKey s.id) = some body) ∧
      (P.stores.database.hasSubmission s.id = true ↔
        ¬ Problem.Deleted P.log s.contestId s.problemId) := by
  have hdone : ∀ (i : Nat) (t : Task), P.tasks[i]? = some t →
      ∃ result, t.rest = some (.done result) := by
    intro i t htask
    have hsound := sound_of_reachable hproblems hempty hreach
    obtain ⟨result, hrest, -⟩ :=
      hsound.known_of_isOver (fun h => h) htask (hover t (List.mem_of_getElem? htask))
    exact ⟨result, hrest⟩
  have harchived : Archived stores.database (fun _ => False) P.toShared := by
    apply archived_of_reachable (orderly_of_no_problems hproblems) (.of_reachable hreach)
    exact drawsNew_of_no_problems hproblems P.log
  refine ⟨fun key text htext => ?_, fun new s haccepted => ?_⟩
  · rcases sourced_of_reachable hproblems hempty hreach key text htext with
      ⟨contestId, id, rfl⟩ | ⟨id, rfl, hwrote⟩
    · exact Or.inl (problem_of_statement hproblems hempty hreach hover htext)
    · right
      obtain ⟨new, s, haccepted, hid, hcode⟩ := accepted_of_wrote hreach.traced hdone hwrote
      exact ⟨new, s, haccepted, congrArg codeKey hid.symm, hcode⟩
  · obtain ⟨sub, hid, hcontest, hproblem, hinsert, hcode⟩ :=
      written_of_accepted hreach.traced haccepted
    rw [← hid, ← hcontest, ← hproblem]
    refine ⟨fun hkind => ?_, harchived.hasSubmission_iff hinsert⟩
    obtain ⟨body, hbody, e, he, hput⟩ := hcode hkind
    rw [hid]
    exact ⟨body, hbody, harchived.codes e he s.id body hput⟩

end Runs

/-! ## A problem that is deleted with a submission -/

/-- Stores that hold a user and nothing else. -/
def userStores : Stores Content.Memory where
  now := default
  ids := .initial
  database := { Database.empty with users := [{ (default : UserProfile) with id := .ofNat 7 }] }
  content := .empty

/-- A contest that runs for a second. -/
def quizTerms : ContestTerms :=
  ⟨"Quiz", "", ⟨1704067200, 0⟩, ⟨1704067200, 0⟩, ⟨1704067200, 0⟩, ⟨1704067201, 0⟩, []⟩

/-- A problem that asks for code. -/
def echoProblem : NewProblem :=
  ⟨"Echo", "Print the input.", 10, .code, []⟩

/-- The submission of the code for the problem. -/
def echoSubmission : Submission :=
  ofNew (.ofNat 3) (.ofNat 7) ⟨1704067200, 0⟩ echoCode

/-- The tables with the contest. -/
def contestTables : Database :=
  { userStores.database with
    contests := [{
      id := .ofNat 1
      name := "Quiz"
      description := ""
      registrationStart := 1704067200000000
      registrationEnd := 1704067200000000
      start := 1704067200000000
      finish := 1704067201000000
      eligible := "" }] }

/-- The tables with the contest and the problem. -/
def problemTables : Database :=
  { contestTables with problems := [.ofNew (.ofNat 1) (.ofNat 2) echoProblem] }

/-- The tables with the contest, the problem and the submission. -/
def submissionTables : Database :=
  { problemTables with
    submissions := [{
      id := .ofNat 3
      userId := .ofNat 7
      contestId := .ofNat 1
      problemId := .ofNat 2
      kind := .code
      language := some "sh"
      choices := "\x7b\x7d"
      status := "pending"
      createdAt := 1704067200000000
      runtime := none
      memory := none }] }

/-- The statement as the content store keeps it. -/
def echoStatement : String × String :=
  (Problem.keyOf (.ofNat 1) (.ofNat 2), Problem.document echoProblem.description)

/-- The code as the content store keeps it. -/
def catCode : String × String :=
  (codeKey (.ofNat 3), "cat")

/-- The stores at some stage of the run. -/
def echoStores (database : Database) (entries : List (String × String)) : Stores Content.Memory :=
  { userStores with database, content := ⟨entries⟩ }

private theorem completes_createContest :
    Completes (Operation.createContest quizTerms).run.run userStores []
      (.ok (Contest.ofTerms (.ofNat 1) quizTerms).toJson)
      (echoStores contestTables []) [.ofNat 1] := by
  have hinsert : userStores.database.answer (.insertContest (.ofTerms (.ofNat 1) quizTerms)) =
      (.ok (), contestTables) := rfl
  exact .fresh (.ofNat 1) (by decide) (.database hinsert (.done _ _ _))

private theorem completes_createProblem :
    Completes (Operation.createProblem (.ofNat 1) echoProblem).run.run
      (echoStores contestTables []) [.ofNat 1]
      (.ok (Problem.ofNew (.ofNat 1) (.ofNat 2) echoProblem).toJson)
      (echoStores problemTables [echoStatement]) [.ofNat 1, .ofNat 2] := by
  have hput : Content.Memory.empty.answer (.put echoStatement.1 echoStatement.2 .createOnly) =
      (.ok (), ⟨[echoStatement]⟩) := rfl
  have hinsert : contestTables.answer
      (.insertProblem (.ofNew (.ofNat 1) (.ofNat 2) echoProblem)) = (.ok (), problemTables) := rfl
  refine .database rfl (.fresh (.ofNat 2) (by decide) ?_)
  exact .content hput (.database hinsert (.done _ _ _))

private theorem completes_createSubmission :
    Completes (Operation.createSubmission (.ofNat 7) echoCode).run.run
      (echoStores problemTables [echoStatement]) [.ofNat 1, .ofNat 2]
      (.ok echoSubmission.toJson)
      (echoStores submissionTables [catCode, echoStatement]) [.ofNat 1, .ofNat 2, .ofNat 3] := by
  have hfind : problemTables.answer (.findProblem (.ofNat 1) (.ofNat 2)) =
      (.ok (some (.ofNew (.ofNat 1) (.ofNat 2) echoProblem)), problemTables) := rfl
  have hinsert : problemTables.answer (.insertSubmission echoSubmission) =
      (.ok (), submissionTables) := rfl
  have hput : (⟨[echoStatement]⟩ : Content.Memory).answer (.put catCode.1 catCode.2 .createOnly) =
      (.ok (), ⟨[catCode, echoStatement]⟩) := by
    decide +kernel
  refine .database hfind (.fresh (.ofNat 3) (by decide) (.clock ⟨1704067200, 0⟩ ?_))
  exact .database hinsert (.content hput (.done _ _ _))

/-- The rows of the problem and of the submission go, and the code stays. -/
private theorem completes_deleteProblem :
    Completes (Operation.deleteProblem (.ofNat 1) (.ofNat 2)).run.run
      (echoStores submissionTables [catCode, echoStatement]) [.ofNat 1, .ofNat 2, .ofNat 3]
      (.ok .null) (echoStores contestTables [catCode]) [.ofNat 1, .ofNat 2, .ofNat 3] := by
  have hfind : submissionTables.answer (.findProblem (.ofNat 1) (.ofNat 2)) =
      (.ok (some (.ofNew (.ofNat 1) (.ofNat 2) echoProblem)), submissionTables) := rfl
  have hremove : submissionTables.answer (.removeProblem (.ofNat 1) (.ofNat 2)) =
      (.ok true, contestTables) := rfl
  have hdelete : (⟨[catCode, echoStatement]⟩ : Content.Memory).answer (.delete echoStatement.1) =
      (.ok (), ⟨[catCode]⟩) := by
    decide +kernel
  exact .database hfind (.database hremove (.content hdelete (.done _ _ _)))

/-- A contest and a problem are created, code is handed in, and then the problem is deleted, one
    after the other. -/
private theorem reachable_deleted :
    ∃ P : Pool Content.Memory, Reachable faultless (Pool.initial userStores) P ∧
      (∀ t ∈ P.tasks, t.IsOver) ∧ (P.log.map Event.task).Pairwise (· ≤ ·) ∧
      Accepted P echoCode echoSubmission ∧ P.stores.database.submissions = [] ∧
      P.stores.texts (codeKey (.ofNat 3)) = some "cat" := by
  obtain ⟨_, hcontest⟩ := (InTurn.initial faultless userStores).perform trivial
    completes_createContest
  obtain ⟨_, hproblem⟩ := hcontest.perform trivial completes_createProblem
  obtain ⟨_, hsubmission⟩ := hproblem.perform trivial completes_createSubmission
  obtain ⟨_, hdeleted⟩ := hsubmission.perform trivial completes_deleteProblem
  have hcode : (echoStores contestTables [catCode]).texts (codeKey (.ofNat 3)) = some "cat" := by
    decide +kernel
  exact ⟨_, hdeleted.reachable, hdeleted.isOver, hdeleted.ordered, ⟨2, .ofNat 7, rfl, rfl⟩, rfl,
    hcode⟩

/-- When a problem is deleted after code was handed in for it, the code is left behind, although no
    operation runs at the same time as another one and no call fails. -/
theorem code_left_behind :
    ∃ P : Pool Content.Memory, Reachable faultless (Pool.initial userStores) P ∧
      (∀ t ∈ P.tasks, t.IsOver) ∧ (P.log.map Event.task).Pairwise (· ≤ ·) ∧
      ∃ new s, Accepted P new s ∧ P.stores.database.hasSubmission s.id = false ∧
        P.stores.texts (codeKey s.id) = some "cat" := by
  obtain ⟨P, hreach, hover, hordered, haccepted, hrows, hcode⟩ := reachable_deleted
  refine ⟨P, hreach, hover, hordered, _, _, haccepted, ?_, hcode⟩
  rw [Database.hasSubmission, hrows]
  rfl

/-- The submission that is gone is one whose problem was deleted. -/
theorem deleted_with_problem :
    ∃ P : Pool Content.Memory, Reachable faultless (Pool.initial userStores) P ∧
      (∀ t ∈ P.tasks, t.IsOver) ∧ Problem.Deleted P.log (.ofNat 1) (.ofNat 2) ∧
      P.stores.texts (codeKey (.ofNat 3)) = some "cat" := by
  obtain ⟨P, hreach, hover, -, haccepted, hrows, hcode⟩ := reachable_deleted
  have hleft := left_content rfl (fun _ => rfl) hreach hover
  obtain ⟨-, hrow⟩ := hleft.2 _ _ haccepted
  refine ⟨P, hreach, hover, ?_, hcode⟩
  by_contra hnot
  have hthere := hrow.mpr hnot
  rw [Database.hasSubmission, hrows] at hthere
  cases hthere

end Submission

end ContestPlatform
