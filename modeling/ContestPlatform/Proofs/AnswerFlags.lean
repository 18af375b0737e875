import ContestPlatform.Proofs.Answers
import ContestPlatform.Proofs.ConcurrentChanges
import ContestPlatform.Proofs.Histories
import ContestPlatform.Proofs.ProblemCalls
import ContestPlatform.Proofs.ProblemRows
import ContestPlatform.Proofs.WritingCalls

/-!
# The flag of multiple answers

A row of a problem keeps a flag beside the kind and the answer that the flag is derived from. Who
writes a row computes the flag from the kind and the answer that are written with it, and these
three are written at once. So the flag is right in every row at any moment, even where a change
overwrites a row that it has never read. What an operation gives back of a problem is a row that was
in the table at some moment, so its flag is right as well, although the row may be another one by
then.
-/

namespace ContestPlatform

open Interleaving

/-! ## Rows with their flags -/

namespace Problem

/-- The flag tells whether this is a multiple-choice problem with more than one right answer. -/
def IsFlagged (p : Problem) : Prop :=
  p.hasMultipleAnswers = true ↔ p.kind = .mcq ∧ 1 < p.answer.length

theorem multipleAnswers_eq_true {kind : ProblemKind} {answer : List Int32} :
    multipleAnswers kind answer = true ↔ kind = .mcq ∧ 1 < answer.length := by
  simp only [multipleAnswers, Bool.and_eq_true, beq_iff_eq, decide_eq_true_eq]

theorem isFlagged_ofNew (contestId id : Uuid) (new : NewProblem) :
    (ofNew contestId id new).IsFlagged :=
  multipleAnswers_eq_true

/-- Whatever a change supplies, the flag is that of the kind and the answer after it. -/
theorem isFlagged_apply (p : Problem) (change : ProblemChange) : (p.apply change).IsFlagged :=
  multipleAnswers_eq_true

/-- A row keeps a problem, but for the key of the statement, which is that of the row. -/
def KeptAs (p row : Problem) : Prop :=
  row = { p with contentKey := row.contentKey }

theorem KeptAs.refl (p : Problem) : p.KeptAs p := rfl

theorem KeptAs.isFlagged {p row : Problem} (h : p.KeptAs row) (hp : p.IsFlagged) :
    row.IsFlagged := by
  rw [h]
  exact hp

end Problem

namespace Database

/-- Every row of a problem has its flag right. -/
def Flagged (db : Database) : Prop :=
  ∀ p ∈ db.problems, p.IsFlagged

/-- A row of a problem was there before a call, or keeps the problem that the call writes. -/
theorem Effect.mem_problems {db db' : Database} {call : Call} {answer : call.Answer}
    (h : Effect db call answer db') {row : Problem} (hrow : row ∈ db'.problems) :
    row ∈ db.problems ∨
      ∃ p : Problem, (call = .insertProblem p ∨ call = .replaceProblem p) ∧ p.KeptAs row := by
  cases h with
  | @problemAdded p _ _ =>
    rcases List.mem_append.mp hrow with hold | hnew
    · exact Or.inl hold
    · rw [List.mem_singleton.mp hnew]
      exact Or.inr ⟨p, Or.inl rfl, .refl p⟩
  | @problemReplaced p _ =>
    obtain ⟨old, hold, rfl⟩ := List.mem_map.mp hrow
    split
    case isTrue => exact Or.inr ⟨p, Or.inr rfl, rfl⟩
    case isFalse => exact Or.inl hold
  | problemRemoved _ => exact Or.inl (List.mem_filter.mp hrow).1
  | _ => exact Or.inl hrow

end Database

/-! ## What is written -/

/-- If the call writes a problem, it writes it with its flag right. -/
def Call.WritesFlagged : Call → Prop
  | .database (.insertProblem p) | .database (.replaceProblem p) => p.IsFlagged
  | _ => True

private theorem Problem.asks_replaceCalls {id : Uuid} {p : Problem} (hp : p.IsFlagged)
    (wrote : Bool) : (replaceCalls id p wrote).Asks Call.WritesFlagged := by
  refine ⟨hp, ?_⟩
  rintro (fault | (_ | _))
  · trivial
  · -- At most a document is removed behind the row.
    cases wrote with
    | false => trivial
    | true => exact ⟨trivial, fun _ => trivial⟩
  · trivial

theorem Operation.asks_writesFlagged (operation : Operation) :
    operation.run.run.Asks Call.WritesFlagged := by
  cases operation with
  | createProblem contestId new =>
    rw [Problem.calls_create]
    refine ⟨trivial, ?_⟩
    rintro (fault | (_ | _))
    · trivial
    · trivial
    refine ⟨trivial, fun id => ⟨trivial, ?_⟩⟩
    rintro (fault | _)
    · trivial
    refine ⟨Problem.isFlagged_ofNew contestId id new, ?_⟩
    rintro (fault | _) <;> trivial
  | updateProblem contestId id change =>
    rw [Problem.calls_update]
    refine ⟨trivial, ?_⟩
    rintro (fault | (_ | q))
    · trivial
    · trivial
    -- The row that was found may be an old one; the flag is computed from what is written now.
    have hflagged := q.isFlagged_apply change
    dsimp only
    cases change.description with
    | none => exact Problem.asks_replaceCalls hflagged false
    | some description =>
      refine ⟨trivial, ?_⟩
      rintro (fault | _)
      · trivial
      · exact Problem.asks_replaceCalls hflagged true
  | _ =>
    -- All others write no problem.
    refine (Operation.within_run _).mono fun call hask => ?_
    unfold Call.WritesFlagged
    split
    · exact hask.elim nofun False.elim
    · exact hask.elim nofun False.elim
    · trivial

/-! ## What is told of rows -/

namespace Problem

/-- The answer to a call tells of a problem in the table: it was found, or it was written. -/
inductive Tells : Exchange → Problem → Prop where
  | found (contestId id : Uuid) (p : Problem) :
      Tells ⟨.database (.findProblem contestId id), Except.ok (some p)⟩ p
  | inserted (p : Problem) : Tells ⟨.database (.insertProblem p), Except.ok ()⟩ p
  | replaced (p : Problem) : Tells ⟨.database (.replaceProblem p), Except.ok true⟩ p

section Answers

variable {κ : Type} [ContentStore κ] {r : Regime} {s : Shared κ} {call : Call}
  {answer : call.Answer} {stores : Stores κ}

/-- A problem that an answer tells of is kept by a row, before the call or after it. -/
theorem Tells.exists_row {p : Problem} (h : Tells ⟨call, answer⟩ p)
    (hans : Answered r s call answer stores) :
    ∃ row, (row ∈ s.stores.database.problems ∨ row ∈ stores.database.problems) ∧
      p.KeptAs row := by
  cases h with
  | found contestId id =>
    have hfind : s.stores.database.problem? contestId id = some p :=
      Except.ok.inj hans.database_ok.1
    exact ⟨p, Or.inl (Database.mem_of_problem? hfind).1, .refl p⟩
  | inserted =>
    obtain ⟨hok, hafter, -⟩ := hans.database_ok
    refine ⟨p, Or.inr ?_, .refl p⟩
    rw [hafter, Database.insertProblem_ok hok]
    exact List.mem_append_right _ List.mem_cons_self
  | replaced =>
    generalize hdb : stores.database = db
    have heffect := hdb ▸ hans.effect.1
    cases heffect with
    | read hreads => exact nomatch hreads
    | problemReplaced hfound =>
      obtain ⟨old, hold, htest⟩ := List.any_eq_true.mp hfound
      refine ⟨{ p with contentKey := old.contentKey }, Or.inr ?_, rfl⟩
      exact List.mem_map.mpr ⟨old, hold, if_pos htest⟩

end Answers

variable {κ : Type} [ContentStore κ]

/-- A row was in the table of problems at some moment of a run. -/
def Recorded (r : Regime) (stores : Stores κ) (P : Pool κ) (row : Problem) : Prop :=
  ∃ Q, Reachable r (Pool.initial stores) Q ∧ Reachable r Q P ∧ row ∈ Q.stores.database.problems

variable {r : Regime} {stores : Stores κ} {P : Pool κ}

section Reading

open Service

/-- A problem is read by two calls: the statement is read after the row. -/
theorem calls_get (contestId id : Uuid) :
    (Operation.getProblem contestId id).run.run =
      .ask (.database (.findProblem contestId id)) fun
        | .error fault => failed fault
        | .ok none => failed (missing id)
        | .ok (some problem) => .ask (.content (.get problem.contentKey)) fun
          | .error fault => failed (.content fault)
          | .ok stored =>
            match ProblemDocument.ofText? stored with
            | none => failed (.internal ("malformed problem content at " ++ problem.contentKey))
            | some document =>
              succeeded (problem.statement document.description).toJson := by
  simp only [Operation.run, run_map, get, find, into_bind, into_found]
  refine Program.ask_congr fun found => ?_
  rcases found with fault | (_ | problem)
  · rfl
  · rfl
  refine Program.ask_congr fun got => ?_
  rcases got with fault | stored
  · rfl
  -- What was stored need not be a document.
  change into (fun statement : ProblemStatement => succeeded statement.toJson) _ = _
  dsimp only
  cases ProblemDocument.ofText? stored <;> rfl

end Reading

section Leads

variable {contestId id : Uuid} {exchanges : List Exchange} {json : Json}

/-- What the creation of a problem gives back was inserted. -/
theorem created_of_leads {new : NewProblem}
    (h : Leads (Operation.createProblem contestId new).run.run exchanges (succeeded json)) :
    ∃ p, ⟨.database (.insertProblem p), Except.ok ()⟩ ∈ exchanges ∧ p.contestId = contestId ∧
      json = p.toJson := by
  rw [calls_create] at h
  obtain ⟨known, rest, rfl, hlook⟩ := h.of_ask
  rcases known with fault | (_ | _)
  · exact nomatch hlook.of_done.2
  · exact nomatch hlook.of_done.2
  obtain ⟨id, rest, rfl, hdraw⟩ := hlook.of_ask
  obtain ⟨stored, rest, rfl, hput⟩ := hdraw.of_ask
  rcases stored with fault | _
  · exact nomatch hput.of_done.2
  obtain ⟨inserted, rest, rfl, hinsert⟩ := hput.of_ask
  rcases inserted with fault | _
  · exact nomatch hinsert.of_done.2
  cases hinsert.of_done.2
  exact ⟨ofNew contestId id new, by simp, rfl, rfl⟩

end Leads

/-- What an operation gives back is a row of the problem that it is about. A problem that is written
    comes with the key that its writer knows, a statement without any. -/
def Shows : Operation → Json → Problem → Prop
  | .createProblem contestId _, json, row =>
    row.contestId = contestId ∧ ∃ key, json = { row with contentKey := key }.toJson
  | .updateProblem contestId id _, json, row =>
    row.contestId = contestId ∧ row.id = id ∧ ∃ key, json = { row with contentKey := key }.toJson
  | .getProblem contestId id, json, row =>
    row.contestId = contestId ∧ row.id = id ∧
      ∃ description, json = (row.statement description).toJson
  | _, _, _ => False

theorem flagged_of_reachable (hstart : stores.database.Flagged)
    (hreach : Reachable r (Pool.initial stores) P) : P.stores.database.Flagged := by
  refine hreach.invariant (I := fun s => s.stores.database.Flagged) hstart ?_
  intro s i operation call next answer stores' hs _ hleads hans row hrow
  cases call with
  | database call =>
    rcases hans.effect.1.mem_problems hrow with hold | ⟨p, hcall, hkept⟩
    · exact hs row hold
    · -- The row is written by this call, with its flag.
      have hwrites : Call.WritesFlagged (.database call) :=
        (hleads.asks operation.asks_writesFlagged).1
      refine hkept.isFlagged ?_
      rcases hcall with rfl | rfl <;> exact hwrites
  | now | freshId | content =>
    rw [Shared.after_stores, hans.database_of_other (fun _ => nofun)] at hrow
    exact hs row hrow

theorem Recorded.isFlagged {row : Problem} (h : Recorded r stores P row)
    (hstart : stores.database.Flagged) : row.IsFlagged := by
  obtain ⟨Q, hreach, -, hrow⟩ := h
  exact flagged_of_reachable hstart hreach row hrow

end Problem

end ContestPlatform
