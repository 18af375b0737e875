import ContestPlatform.Proofs.StatementOutlines

/-!
# Operations that leave problems alone

The operations that do not write problems make no call that the writers of problems speak of: they
leave the rows of problems where they are, and the only texts that they write are code, under keys
that are not those of statements. So they keep to the protocol of the writers whatever they do, and
what the protocol gives holds of runs of all operations.
-/

namespace ContestPlatform

open Interleaving

/-- The calls that leave the rows and the statements of problems alone. -/
def Call.sparesProblems : Call → Prop
  | .now | .freshId => True
  | .database (.insertProblem _) | .database (.replaceProblem _) | .database (.removeProblem ..) =>
    False
  | .database _ => True
  | .content (.put key _ _) => ∃ id, key = Submission.codeKey id
  | .content (.get _) => True
  | .content (.delete _) => False

theorem Call.sparesProblems_of_reads {call : Call} (h : call.reads = true) :
    call.sparesProblems := by
  cases call with
  | now | freshId => trivial
  | database call =>
    cases call with
    | insertProblem | replaceProblem | removeProblem => exact nomatch h
    | _ => trivial
  | content call =>
    cases call with
    | put | delete => exact nomatch h
    | get => trivial

/-- The rows of problems stay as they are. -/
theorem Database.Effect.problems_eq {db db' : Database} {call : Database.Call}
    {answer : call.Answer} (h : Effect db call answer db')
    (hspares : (Call.database call).sparesProblems) : db'.problems = db.problems := by
  cases h with
  | problemAdded | problemReplaced | problemRemoved => exact hspares.elim
  | _ => rfl

namespace Statements

variable {κ : Type} [LawfulContentStore κ] {r : Regime} {i : Nat} {operation : Operation}

/-- The task has no statement to look after. -/
def Free (i : Nat) (s : Shared κ) : Prop :=
  ∀ contestId id, debt s.log i ≠ some (Problem.keyOf contestId id)

omit [LawfulContentStore κ] in
theorem Idle.free {i : Nat} {s : Shared κ} (h : Idle i s) : Free i s := by
  intro contestId id howes
  exact nomatch h.symm.trans howes

theorem stable_free (i : Nat) : (protocol κ).Stable i (Free i) := by
  intro s e stores hne _ _ _ h
  unfold Free
  rw [Shared.after_log, debt_append_ne hne]
  exact h

omit [LawfulContentStore κ] in
/-- A call that leaves problems alone leaves the task without a statement to look after. -/
theorem free_after {s : Shared κ} {call : Call} (hspares : call.sparesProblems)
    (answer : call.Answer) (stores : Stores κ) (h : Free i s) :
    Free i (s.after ⟨i, operation, call, answer⟩ stores) := by
  unfold Free
  intro contestId id
  rw [Shared.after_log, debt_append_self s.log ⟨i, operation, call, answer⟩]
  cases call with
  | now | freshId => exact h contestId id
  | database call =>
    cases call with
    | insertProblem | replaceProblem | removeProblem => exact hspares.elim
    | _ => exact h contestId id
  | content call =>
    cases call with
    | put key body mode =>
      cases answer with
      | error fault => exact h contestId id
      | ok _ =>
        -- What was written is code, and its key is not that of a statement.
        obtain ⟨submission, rfl⟩ := hspares
        exact fun heq => Submission.codeKey_ne_keyOf submission contestId id (Option.some.inj heq)
    | get => exact h contestId id
    | delete => exact hspares.elim

/-- A call that leaves problems alone keeps to the protocol. -/
theorem Inv.spared {s : Shared κ} (hi : Inv s) {call : Call} (hspares : call.sparesProblems)
    {answer : call.Answer} {stores : Stores κ} (hfree : Free i s)
    (hans : Answered r s call answer stores) :
    Inv (s.after ⟨i, operation, call, answer⟩ stores) ∧
      Move s ⟨i, operation, call, answer⟩ (s.after ⟨i, operation, call, answer⟩ stores) := by
  have hrows : stores.database.problems = s.stores.database.problems := by
    cases call with
    | database call => exact hans.effect.1.problems_eq hspares
    | now | freshId | content => rw [hans.database_of_other (fun _ => nofun)]
  have htexts : ∀ c id, texts (s.after ⟨i, operation, call, answer⟩ stores) (Problem.keyOf c id) =
      texts s (Problem.keyOf c id) := by
    intro c id
    cases call with
    | database | now | freshId => exact congrFun (hans.content_of_other (fun _ => nofun)) _
    | content call =>
      cases call with
      | put key body mode =>
        obtain ⟨submission, rfl⟩ := hspares
        exact hans.texts_other (Submission.codeKey_ne_keyOf submission c id)
      | get key => exact congrFun (hans.kept_of_reads rfl).texts _
      | delete => exact hspares.elim
  have hinserted : (⟨i, operation, call, answer⟩ : Event).inserted? = none := by
    cases call with
    | database call =>
      cases call with
      | insertProblem => exact hspares.elim
      | _ => rfl
    | now | freshId | content => rfl
  apply hi.aside _ (congrArg _ hrows) htexts ?_ hinserted
  · intro c id text hdebt
    exact absurd hdebt (hfree c id)
  · intro id hdrawn
    exact hans.not_drew hdrawn

/-- A program that leaves problems alone keeps to the protocol. -/
theorem walks_aside {p : StoreProgram (Except Fault Json)} (hp : p.Asks Call.sparesProblems) :
    (protocol κ).Outline r i operation (fun _ s => Free i s) (Free i) p := by
  induction p with
  | done result => exact ⟨stable_free i, fun s _ hfree => hfree⟩
  | ask call next ih =>
    refine ⟨stable_free i, fun s answer stores hi hfree hans => ?_⟩
    obtain ⟨hinv, hmove⟩ := hi.spared hp.1 hfree hans
    exact ⟨hinv, hmove, Free i, free_after hp.1 answer stores hfree, ih answer (hp.2 answer)⟩

/-- The operations that do not write problems leave them alone. -/
theorem asks_of_not_writes (h : ¬ Writes operation) :
    operation.run.run.Asks Call.sparesProblems := by
  have hreads : ∀ call : Call, call.reads = true → call.sparesProblems :=
    fun _ => Call.sparesProblems_of_reads
  cases operation with
  | createSubmission userId new =>
    have hcreate := Submission.within_create hreads userId new (fun _ _ => trivial)
      fun id _ => ⟨id, rfl⟩
    exact hcreate.map
  | createProblem | updateProblem | deleteProblem | deleteContest => exact absurd trivial h
  | _ =>
    refine (Operation.within_run _).mono fun call hmay => ?_
    rcases hmay with hread | hwrite
    · exact hreads call hread
    · cases call with
      | now | freshId => trivial
      | database call =>
        cases call with
        | insertProblem | replaceProblem | removeProblem => exact False.elim hwrite
        | _ => trivial
      | content call => exact False.elim hwrite

/-- Every operation keeps to the protocol from its first call on, and in the end it has no statement
    to look after, unless calls failed that should not. -/
theorem walks_run (operation : Operation) :
    (protocol κ).Outline r i operation (fun _ s => OnlyInsertsFail r → Free i s)
      (Protocol.NotBegun i) operation.run.run := by
  by_cases hwrites : Writes operation
  · exact (walks_writes hwrites).imp fun _ s hidle honly => (hidle honly).free
  · have haside : (protocol κ).Outline r i operation (fun _ s => Free i s) (Free i)
        operation.run.run := walks_aside (asks_of_not_writes hwrites)
    have hbegun : (protocol κ).Outline r i operation (fun _ s => Free i s) (Protocol.NotBegun i)
        operation.run.run := by
      apply haside.weaken (Protocol.stable_notBegun _ i)
      intro s hnot
      exact Idle.free (debt_eq_none hnot)
    exact hbegun.imp fun _ s hfree _ => hfree

end Statements

end ContestPlatform
