import ContestPlatform.Proofs.Histories

/-!
# Operations in turn

Operations may also be performed one after another. Each of them then does what its program does by
itself, on the stores that the one before it has left: `Completes` says what that is, call by call,
and `InTurn.perform` leads a pool on by a whole operation. So a long run is put together from one
short piece for each operation.
-/

namespace ContestPlatform.Interleaving

variable {κ : Type} [ContentStore κ] {r : Regime}

/-! ## Calls that work -/

/-- A call may be answered as the stores answer it, unless it draws an identifier. -/
theorem Answered.of_answer_eq {s : Shared κ} {call : Call} {answer : call.Answer}
    {stores : Stores κ} (h : s.stores.answer call = (answer, stores)) (hcall : call ≠ .freshId)
    (hworks : ¬ Fails call answer) : Answered r s call answer stores := by
  obtain ⟨rfl, rfl⟩ : (s.stores.answer call).1 = answer ∧ (s.stores.answer call).2 = stores := by
    rw [h]
    exact ⟨rfl, rfl⟩
  cases call with
  | now => exact .clock _
  | freshId => exact absurd rfl hcall
  | database call => exact .database call fun hfails => absurd hfails hworks
  | content call => exact .content call fun hfails => absurd hfails hworks

/-! ## A program by itself -/

/-- A program is performed by itself, from some stores to others, and has a result. No call fails,
    the clock shows anything, and what is drawn is none of the identifiers that were drawn before.
    The identifiers are told in the order in which they were drawn. -/
inductive Completes : StoreProgram (Except Fault Json) → Stores κ → List Uuid →
    Except Fault Json → Stores κ → List Uuid → Prop where
  | done (result : Except Fault Json) (s : Stores κ) (drawn : List Uuid) :
      Completes (.done result) s drawn result s drawn
  | clock {next : Call.Answer .now → StoreProgram (Except Fault Json)} {s s' : Stores κ}
      {drawn drawn' : List Uuid} {result : Except Fault Json} (now : Instant)
      (h : Completes (next now) s drawn result s' drawn') :
      Completes (.ask .now next) s drawn result s' drawn'
  | fresh {next : Call.Answer .freshId → StoreProgram (Except Fault Json)} {s s' : Stores κ}
      {drawn drawn' : List Uuid} {result : Except Fault Json} (id : Uuid) (hnew : id ∉ drawn)
      (h : Completes (next id) s (drawn ++ [id]) result s' drawn') :
      Completes (.ask .freshId next) s drawn result s' drawn'
  | database {call : Database.Call}
      {next : Call.Answer (.database call) → StoreProgram (Except Fault Json)} {s s' : Stores κ}
      {drawn drawn' : List Uuid} {result : Except Fault Json} {x : call.Result} {db : Database}
      (hanswer : s.database.answer call = (.ok x, db))
      (h : Completes (next (.ok x)) { s with database := db } drawn result s' drawn') :
      Completes (.ask (.database call) next) s drawn result s' drawn'
  | content {call : Content.Call}
      {next : Call.Answer (.content call) → StoreProgram (Except Fault Json)} {s s' : Stores κ}
      {drawn drawn' : List Uuid} {result : Except Fault Json} {x : call.Result} {kept : κ}
      (hanswer : ContentStore.answer s.content call = (.ok x, kept))
      (h : Completes (next (.ok x)) { s with content := kept } drawn result s' drawn') :
      Completes (.ask (.content call) next) s drawn result s' drawn'

/-! ## The last task of a pool -/

/-- The last task of a pool, which is at `p`, can be led to a result. What this adds to the log are
    calls of the task, and the log tells what was drawn. -/
def Finishes (r : Regime) (tasks : List Task) (operation : Operation)
    (p : StoreProgram (Except Fault Json)) (s : Shared κ) (result : Except Fault Json)
    (stores : Stores κ) (drawn : List Uuid) : Prop :=
  ∃ events : List Event, (∀ e ∈ events, e.task = tasks.length) ∧
    (s.log ++ events).filterMap Event.drawn? = drawn ∧
    Reachable r ⟨s, tasks ++ [⟨operation, some p⟩]⟩
      ⟨⟨stores, s.log ++ events⟩, tasks ++ [⟨operation, some (.done result)⟩]⟩

section Finishes

variable {tasks : List Task} {operation : Operation} {result : Except Fault Json}
  {stores : Stores κ} {drawn : List Uuid}

theorem Finishes.ask {call : Call} {next : call.Answer → StoreProgram (Except Fault Json)}
    {s : Shared κ} {answer : call.Answer} {stores' : Stores κ}
    (hanswer : Answered r s call answer stores')
    (h : Finishes r tasks operation (next answer)
      (s.after ⟨tasks.length, operation, call, answer⟩ stores') result stores drawn) :
    Finishes r tasks operation (.ask call next) s result stores drawn := by
  obtain ⟨events, howned, hdrawn, hreach⟩ := h
  have hstep : Step r ⟨s, tasks ++ [⟨operation, some (.ask call next)⟩]⟩
      ⟨s.after ⟨tasks.length, operation, call, answer⟩ stores',
        tasks ++ [⟨operation, some (next answer)⟩]⟩ := by
    have hcall := Step.call ⟨s, tasks ++ [⟨operation, some (.ask call next)⟩]⟩
      List.getElem?_concat_length hanswer
    rw [List.set_append_right _ _ (Nat.le_refl _), Nat.sub_self] at hcall
    exact hcall
  rw [Shared.after_log, List.append_assoc, List.singleton_append] at hdrawn hreach
  exact ⟨_, List.forall_mem_cons.mpr ⟨rfl, howned⟩, hdrawn, .head hstep hreach⟩

theorem Completes.finishes {p : StoreProgram (Except Fault Json)} {s : Stores κ}
    {drawn' : List Uuid} (h : Completes p s drawn result stores drawn') {log : List Event}
    (hdrawn : log.filterMap Event.drawn? = drawn) :
    Finishes r tasks operation p ⟨s, log⟩ result stores drawn' := by
  -- Call by call: each is answered as the program was answered, and an identifier that is none of
  -- those in the log was never drawn.
  induction h generalizing log with
  | done result s drawn =>
    refine ⟨[], fun e he => absurd he List.not_mem_nil, ?_, ?_⟩
    · rw [List.append_nil]
      exact hdrawn
    · rw [List.append_nil]
      exact .refl
  | clock now _ ih =>
    refine Finishes.ask (.clock now) (ih ?_)
    rw [filterMap_concat, hdrawn]
    exact List.append_nil _
  | fresh id hnew _ ih =>
    refine Finishes.ask (.fresh id (not_drew_of_notMem ?_)) (ih ?_)
    · rw [hdrawn]
      exact hnew
    · rw [filterMap_concat, hdrawn]
      rfl
  | database hanswer _ ih =>
    refine Finishes.ask (.of_answer_eq ?_ nofun (not_fails_database ⟨_, rfl⟩)) (ih ?_)
    · simp only [Stores.answer, hanswer]
    · rw [filterMap_concat, hdrawn]
      exact List.append_nil _
  | content hanswer _ ih =>
    refine Finishes.ask (.of_answer_eq ?_ nofun (not_fails_content ⟨_, rfl⟩)) (ih ?_)
    · simp only [Stores.answer, hanswer]
    · rw [filterMap_concat, hdrawn]
      exact List.append_nil _

end Finishes

/-! ## One operation after another -/

/-- Operations were performed one after another, and drew these identifiers. -/
structure InTurn (r : Regime) (stores : Stores κ) (drawn : List Uuid) (P : Pool κ) : Prop where
  reachable : Reachable r (Pool.initial stores) P
  isOver : ∀ t ∈ P.tasks, t.IsOver
  /-- The calls of an operation come after those of the operations before it. -/
  ordered : (P.log.map Event.task).Pairwise (· ≤ ·)
  drawn_eq : P.log.filterMap Event.drawn? = drawn

namespace InTurn

variable {stores stores' : Stores κ} {drawn drawn' : List Uuid} {P : Pool κ}

theorem initial (r : Regime) (stores : Stores κ) : InTurn r stores [] (Pool.initial stores) where
  reachable := .refl
  isOver _ ht := absurd ht List.not_mem_nil
  ordered := .nil
  drawn_eq := rfl

/-- One more operation is performed. -/
theorem perform (h : InTurn r stores drawn P) {operation : Operation}
    (hadmits : r.admits operation) {result : Except Fault Json}
    (hcompletes : Completes operation.run.run P.stores drawn result stores' drawn') :
    ∃ log, InTurn r stores drawn'
      ⟨⟨stores', log⟩, P.tasks ++ [⟨operation, some (.done result)⟩]⟩ := by
  obtain ⟨events, howned, hdrawn, hreach⟩ := hcompletes.finishes h.drawn_eq
  refine ⟨P.log ++ events, ?_, fun t ht => ?_, ?_, hdrawn⟩
  · exact (h.reachable.tail (.begin_ P operation hadmits)).trans hreach
  · rcases List.mem_append.mp ht with hold | hlast
    · exact h.isOver t hold
    · rw [List.mem_singleton.mp hlast]
      rintro p ⟨⟩
      exact ⟨result, rfl⟩
  · rw [List.map_append, List.map_congr_left howned, List.map_const']
    refine List.pairwise_append.mpr ⟨h.ordered, ?_, ?_⟩
    · exact List.pairwise_replicate.mpr (Or.inr (Nat.le_refl _))
    -- The tasks that made the calls before were begun before.
    intro i hi j hj
    obtain ⟨e, he, rfl⟩ := List.mem_map.mp hi
    obtain ⟨t, ht, -⟩ := h.reachable.traced.owned e he
    rw [List.eq_of_mem_replicate hj]
    exact Nat.le_of_lt (List.getElem?_eq_some_iff.mp ht).1

end InTurn

end ContestPlatform.Interleaving
