import ContestPlatform.Proofs.Histories

/-!
# Runs in an environment

Programs that are no part of the platform write to its tables too: accounts are made elsewhere, and
submissions are graded elsewhere. An environment says how they may change the tables, and they may
do so between any two calls of the tasks. They leave no trace in the log, so what the tasks have done
is told by the log as before. What every answered call and every change from outside keeps holds at
any moment.
-/

namespace ContestPlatform.Interleaving

variable {κ : Type}

/-- What is shared after the tables were changed from outside. -/
def Shared.withTables (s : Shared κ) (db : Database) : Shared κ :=
  { s with stores := { s.stores with database := db } }

@[simp] theorem Shared.withTables_database (s : Shared κ) (db : Database) :
    (s.withTables db).stores.database = db := rfl

variable [ContentStore κ] {r : Regime} {world : Database → Database → Prop}

/-- A step of a pool, or a change of the tables that the environment `world` allows. -/
inductive OpenStep (r : Regime) (world : Database → Database → Prop) :
    Pool κ → Pool κ → Prop where
  | step {P P' : Pool κ} (hstep : Step r P P') : OpenStep r world P P'
  | outside (P : Pool κ) {db : Database} (hchange : world P.stores.database db) :
      OpenStep r world P ⟨P.toShared.withTables db, P.tasks⟩

/-- A pool can be reached from another one in an environment. -/
def OpenReachable (r : Regime) (world : Database → Database → Prop) : Pool κ → Pool κ → Prop :=
  Relation.ReflTransGen (OpenStep r world)

namespace OpenReachable

variable {stores : Stores κ} {P : Pool κ}

/-- The environment may as well do nothing. -/
theorem of_reachable {Q : Pool κ} (h : Reachable r Q P) : OpenReachable r world Q P := by
  induction h with
  | refl => exact .refl
  | tail _ hstep ih => exact ih.tail (.step hstep)

/-- What was answered stays in the log. -/
theorem mem_log {P P' : Pool κ} (h : OpenReachable r world P P') {e : Event} (he : e ∈ P.log) :
    e ∈ P'.log := by
  induction h with
  | refl => exact he
  | tail _ hstep ih =>
    cases hstep with
    | outside => exact ih
    | step hstep =>
      cases hstep with
      | begin_ => exact ih
      | call => exact List.mem_append_left _ ih
      | cancel => exact ih

theorem traced (h : OpenReachable r world (Pool.initial stores) P) : Traced r P := by
  induction h with
  | refl => exact Reachable.traced .refl
  | tail _ hstep ih =>
    cases hstep with
    | step hstep => exact ih.step hstep
    | outside hchange =>
      -- A change from outside belongs to no task.
      exact ⟨ih.admitted, ih.owned, ih.led⟩

/-- What every answered call and every change from outside keeps holds of what is shared at any
    moment. -/
theorem invariant {I : Shared κ → Prop} (hstart : I ⟨stores, []⟩)
    (hcall : ∀ s i operation call next answer stores', I s → r.admits operation →
      Leads operation.run.run (exchangesOf s.log i) (.ask call next) →
      Answered r s call answer stores' → I (s.after ⟨i, operation, call, answer⟩ stores'))
    (hworld : ∀ s db, I s → world s.stores.database db → I (s.withTables db))
    (h : OpenReachable r world (Pool.initial stores) P) : I P.toShared := by
  induction h with
  | refl => exact hstart
  | tail hreach hstep ih =>
    have htraced := traced hreach
    cases hstep with
    | outside hchange => exact hworld _ _ ih hchange
    | step hstep =>
      -- To begin a task or to give it up changes nothing that is shared.
      cases hstep with
      | begin_ operation hadmits => exact ih
      | cancel htask hmay => exact ih
      | call htask hanswer =>
        have hadmits := htraced.admitted _ (List.mem_of_getElem? htask)
        exact hcall _ _ _ _ _ _ _ ih hadmits (htraced.leads htask) hanswer

end OpenReachable

end ContestPlatform.Interleaving
