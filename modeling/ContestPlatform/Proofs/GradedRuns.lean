import ContestPlatform.Proofs.OpenRuns

/-!
# Runs with a grader

The grader is no part of the platform. It moves submissions to other states, says how long they ran
and how much memory they took, and keeps the results of test cases. It may do so between any two
calls of the tasks. What the tasks have done is told by the log as before, and a property of what is
shared is shown of every call that is answered and of the grader.
-/

namespace ContestPlatform

namespace Database

/-- What the grader writes of a submission. -/
structure Grade where
  /-- The text of a state. The column holds any text. -/
  status : String
  runtime : Option Int64
  memory : Option Int64

/-- A row with a grade in it. -/
def SubmissionRow.graded (row : SubmissionRow) (g : Grade) : SubmissionRow :=
  { row with status := g.status, runtime := g.runtime, memory := g.memory }

@[simp] theorem SubmissionRow.graded_id (row : SubmissionRow) (g : Grade) :
    (row.graded g).id = row.id := rfl

/-- Grade the submission with an identifier, and keep other results of test cases. -/
def grade (db : Database) (id : Uuid) (g : Grade) (results : List ResultRow) : Database :=
  { db with
    submissions := db.submissions.map fun row => if row.id = id then row.graded g else row
    results := results }

/-- What the grader may do to the tables. `writes` says which texts it writes as states. -/
def Grades (writes : String → Prop) (db db' : Database) : Prop :=
  ∃ id g results, writes g.status ∧ db' = db.grade id g results

end Database

namespace Interleaving

variable {κ : Type}

/-- What is shared after a submission was graded. -/
def Shared.graded (s : Shared κ) (id : Uuid) (g : Database.Grade)
    (results : List Database.ResultRow) : Shared κ :=
  { s with stores := { s.stores with database := s.stores.database.grade id g results } }

@[simp] theorem Shared.graded_database (s : Shared κ) (id : Uuid) (g : Database.Grade)
    (results : List Database.ResultRow) :
    (s.graded id g results).stores.database = s.stores.database.grade id g results := rfl

variable [ContentStore κ] {r : Regime} {writes : String → Prop}

/-- A step of a pool, or the grader grades a submission. `writes` says which texts it writes as
    states. -/
inductive GradedStep (r : Regime) (writes : String → Prop) : Pool κ → Pool κ → Prop where
  | step {P P' : Pool κ} (hstep : Step r P P') : GradedStep r writes P P'
  | grade (P : Pool κ) (id : Uuid) (g : Database.Grade) (results : List Database.ResultRow)
      (hwrites : writes g.status) :
      GradedStep r writes P ⟨P.toShared.graded id g results, P.tasks⟩

/-- A pool can be reached from another one while the grader is at work. -/
def GradedReachable (r : Regime) (writes : String → Prop) : Pool κ → Pool κ → Prop :=
  Relation.ReflTransGen (GradedStep r writes)

namespace GradedReachable

variable {stores : Stores κ} {P : Pool κ}

/-- The grader may as well do nothing. -/
theorem of_reachable {Q : Pool κ} (h : Reachable r Q P) : GradedReachable r writes Q P := by
  induction h with
  | refl => exact .refl
  | tail _ hstep ih => exact ih.tail (.step hstep)

/-- The grader is an environment of the tasks. -/
theorem opened {P P' : Pool κ} (h : GradedReachable r writes P P') :
    OpenReachable r (Database.Grades writes) P P' := by
  induction h with
  | refl => exact .refl
  | tail _ hstep ih =>
    cases hstep with
    | step hstep => exact ih.tail (.step hstep)
    | grade id g results hwrites => exact ih.tail (.outside _ ⟨id, g, results, hwrites, rfl⟩)

/-- What was answered stays in the log. -/
theorem mem_log {P P' : Pool κ} (h : GradedReachable r writes P P') {e : Event} (he : e ∈ P.log) :
    e ∈ P'.log :=
  h.opened.mem_log he

theorem traced (h : GradedReachable r writes (Pool.initial stores) P) : Traced r P :=
  h.opened.traced

/-- What every answered call and every grade keeps holds of what is shared at any moment. -/
theorem invariant {I : Shared κ → Prop} (hstart : I ⟨stores, []⟩)
    (hcall : ∀ s i operation call next answer stores', I s → r.admits operation →
      Leads operation.run.run (exchangesOf s.log i) (.ask call next) →
      Answered r s call answer stores' → I (s.after ⟨i, operation, call, answer⟩ stores'))
    (hgrade : ∀ s id g results, I s → writes g.status → I (s.graded id g results))
    (h : GradedReachable r writes (Pool.initial stores) P) : I P.toShared := by
  apply h.opened.invariant hstart hcall
  rintro s db hI ⟨id, g, results, hwrites, rfl⟩
  exact hgrade s id g results hI hwrites

end GradedReachable

end Interleaving

end ContestPlatform
