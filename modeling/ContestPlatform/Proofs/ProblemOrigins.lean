import ContestPlatform.Proofs.Answers
import ContestPlatform.Proofs.GradedRuns
import ContestPlatform.Proofs.ProblemCalls
import ContestPlatform.Proofs.StatementProtocol

/-!
# Where problems come from

A row of a problem was there at the start, or a task inserted it under an identifier that it had
drawn. A task inserts one row at most, so an identifier belongs to one contest for good, and a row
that was removed never comes back. `Settled` says so of any moment of a run, together with what was
told of problems that were found.
-/

namespace ContestPlatform

open Interleaving

/-! ## Rows of problems after a call -/

namespace Database

/-- Tables in which every row of a problem has the key of its own statement, and no two problems
    share their identifier. -/
structure Orderly (db : Database) : Prop where
  keyed : db.Keyed
  distinct : ∀ p ∈ db.problems, ∀ q ∈ db.problems, p.id = q.id → p.contestId = q.contestId

namespace Effect

variable {db db' : Database} {call : Call} {answer : call.Answer}

/-- Where the rows of problems belong after a call: rows are only added and removed. -/
theorem place_of_mem (h : Effect db call answer db') {p : Problem} (hp : p ∈ db'.problems) :
    (∃ q ∈ db.problems, q.place = p.place) ∨
      (⟨.database call, answer⟩ : Exchange) = ⟨.database (.insertProblem p), Except.ok ()⟩ := by
  cases h with
  | problemAdded _ _ =>
    rcases List.mem_append.mp hp with hold | hnew
    · exact Or.inl ⟨p, hold, rfl⟩
    · rw [List.mem_singleton.mp hnew]
      exact Or.inr rfl
  | problemReplaced _ =>
    -- A row that takes the place of another one belongs where that one did.
    obtain ⟨q, hq, rfl⟩ := List.mem_map.mp hp
    refine Or.inl ⟨q, hq, ?_⟩
    split
    case isTrue hplace =>
      obtain ⟨hcontest, hid⟩ := isProblemOf_eq_true.mp hplace
      simp [Problem.place, hcontest, hid]
    case isFalse => rfl
  | problemRemoved _ => exact Or.inl ⟨p, (List.mem_filter.mp hp).1, rfl⟩
  | _ => exact Or.inl ⟨p, hp, rfl⟩

/-- A row of a problem is gone after it was removed. -/
theorem not_hasProblemOf_removed {contestId id : Uuid}
    (h : Effect db (.removeProblem contestId id) (.ok true) db') :
    db.HasProblemOf contestId id ∧ ¬ db'.HasProblemOf contestId id := by
  cases h with
  | read hreads => exact nomatch hreads
  | problemRemoved hfound =>
    exact ⟨any_isProblemOf.mp hfound, fun hrow => ((hasProblemOf_filter rfl).mp hrow).2 ⟨rfl, rfl⟩⟩

end Effect

end Database

namespace Interleaving.Answered

variable {κ : Type} [ContentStore κ] {r : Regime} {s : Shared κ} {call : Call}
  {answer : call.Answer} {stores : Stores κ}

theorem place_of_mem (h : Answered r s call answer stores) {p : Problem}
    (hp : p ∈ stores.database.problems) :
    (∃ q ∈ s.stores.database.problems, q.place = p.place) ∨
      (⟨call, answer⟩ : Exchange) = ⟨.database (.insertProblem p), Except.ok ()⟩ := by
  cases call with
  | database call => exact h.effect.1.place_of_mem hp
  | now | freshId | content =>
    rw [h.database_of_other (fun _ => nofun)] at hp
    exact Or.inl ⟨p, hp, rfl⟩

theorem hasProblemOf (h : Answered r s call answer stores) {contestId id : Uuid}
    (hrow : stores.database.HasProblemOf contestId id) :
    s.stores.database.HasProblemOf contestId id ∨ ∃ p, p.contestId = contestId ∧ p.id = id ∧
      (⟨call, answer⟩ : Exchange) = ⟨.database (.insertProblem p), Except.ok ()⟩ := by
  obtain ⟨p, hp, hcontest, hid⟩ := hrow
  rcases h.place_of_mem hp with ⟨q, hq, hplace⟩ | hinsert
  · simp only [Problem.place, Prod.mk.injEq] at hplace
    exact Or.inl ⟨q, hq, hplace.1.trans hcontest, hplace.2.1.trans hid⟩
  · exact Or.inr ⟨p, hcontest, hid, hinsert⟩

end Interleaving.Answered

namespace Problem

/-! ## What a task was told before it inserts a row -/

/-- A row is inserted by the task that drew its identifier, and by no earlier call of that task. -/
theorem inserted_of_leads {contestId : Uuid} {new : NewProblem} {exchanges : List Exchange}
    {p : Problem} {next : Except Fault Unit → StoreProgram (Except Fault Json)}
    (h : Leads (Operation.createProblem contestId new).run.run exchanges
      (.ask (.database (.insertProblem p)) next)) :
    ∃ id, p = ofNew contestId id new ∧ exchanges =
      [⟨.database (.contestExists contestId), Except.ok true⟩, ⟨.freshId, id⟩,
        ⟨.content (.put (keyOf contestId id) (document new.description) .createOnly),
          Except.ok ()⟩] := by
  rw [calls_create] at h
  cases h with
  | @on _ _ known _ _ h =>
  rcases known with fault | (_ | _)
  · exact nomatch h.of_done.2
  · exact nomatch h.of_done.2
  -- The contest is there, so an identifier is drawn and the document is written.
  cases h with
  | @on _ _ id _ _ h =>
  cases h with
  | @on _ _ stored _ _ h =>
  rcases stored with fault | _
  · exact nomatch h.of_done.2
  cases h with
  | here => exact ⟨id, rfl, rfl⟩
  | @on _ _ inserted _ _ h =>
    rcases inserted with fault | _
    · exact nomatch h.of_done.2
    · exact nomatch h.of_done.2

/-! ## Any moment of a run -/

/-- A row of a problem was there at the start or was inserted. -/
def Placed (start : Database) (log : List Event) (contestId id : Uuid) : Prop :=
  start.HasProblemOf contestId id ∨
    ∃ e ∈ log, ∃ p, e.inserted? = some p ∧ p.contestId = contestId ∧ p.id = id

/-- A problem was deleted by the operation that is there for it. -/
def Deleted (log : List Event) (contestId id : Uuid) : Prop :=
  ∃ e ∈ log, e.operation = .deleteProblem contestId id ∧
    e.exchange = ⟨.database (.removeProblem contestId id), Except.ok true⟩

/-- No identifier that was drawn is that of a problem of the start. -/
def DrawsNew (start : Database) (log : List Event) : Prop :=
  ∀ e ∈ log, ∀ id, e.drawn? = some id → start.hasProblem id = false

section Logs

variable {start : Database} {log : List Event} {e : Event} {contestId id : Uuid}

theorem Placed.append (h : Placed start log contestId id) (e : Event) :
    Placed start (log ++ [e]) contestId id := by
  rcases h with hstart | ⟨e', he', hinserted⟩
  · exact Or.inl hstart
  · exact Or.inr ⟨e', List.mem_append_left _ he', hinserted⟩

theorem placed_append : Placed start (log ++ [e]) contestId id ↔
    Placed start log contestId id ∨
      ∃ p, e.inserted? = some p ∧ p.contestId = contestId ∧ p.id = id := by
  simp only [Placed, List.mem_append, List.mem_singleton, or_and_right, exists_or,
    exists_eq_left, or_assoc]

theorem deleted_append : Deleted (log ++ [e]) contestId id ↔ Deleted log contestId id ∨
    e.operation = .deleteProblem contestId id ∧
      e.exchange = ⟨.database (.removeProblem contestId id), Except.ok true⟩ := by
  simp only [Deleted, List.mem_append, List.mem_singleton, or_and_right, exists_or,
    exists_eq_left]

theorem DrawsNew.of_append (h : DrawsNew start (log ++ [e])) : DrawsNew start log :=
  fun e' he' => h e' (List.mem_append_left _ he')

theorem inserted?_of_exchange {p : Problem}
    (h : e.exchange = ⟨.database (.insertProblem p), Except.ok ()⟩) : e.inserted? = some p := by
  obtain ⟨task, operation, call, answer⟩ := e
  cases h
  rfl

theorem exchange_of_inserted? {p : Problem} (h : e.inserted? = some p) :
    e.exchange = ⟨.database (.insertProblem p), Except.ok ()⟩ := by
  unfold Event.inserted? at h
  split at h
  · cases h
    rfl
  · exact nomatch h

end Logs

variable {κ : Type}

/-- What holds of problems at any moment of a run that starts with the tables `start`. -/
structure Settled (start : Database) (s : Shared κ) : Prop where
  drawnOnce : ∀ {id i j}, Drew s.log i id → Drew s.log j id → i = j
  drawn : ∀ e ∈ s.log, ∀ p, e.inserted? = some p → Drew s.log e.task p.id
  keyed : s.stores.database.Keyed
  placed : ∀ {contestId id}, s.stores.database.HasProblemOf contestId id →
    Placed start s.log contestId id
  /-- An identifier belongs to one contest. -/
  one : ∀ {contestId contestId' id}, Placed start s.log contestId id →
    Placed start s.log contestId' id → contestId = contestId'
  /-- A problem that was found has its place, and the key of its own statement. -/
  found : ∀ e ∈ s.log, ∀ contestId id q,
    e.exchange = ⟨.database (.findProblem contestId id), Except.ok (some q)⟩ →
      Placed start s.log contestId id ∧ q.contentKey = keyOf contestId id
  /-- A problem that was deleted does not come back. -/
  deleted : ∀ {contestId id}, Deleted s.log contestId id →
    Placed start s.log contestId id ∧ ¬ s.stores.database.HasProblemOf contestId id

namespace Settled

variable {start : Database} {s : Shared κ}

theorem of_start {stores : Stores κ} (h : stores.database.Orderly) :
    Settled stores.database (⟨stores, []⟩ : Shared κ) := by
  have hplaced : ∀ {c id}, Placed stores.database [] c id → stores.database.HasProblemOf c id := by
    rintro c id (hstart | ⟨e, he, -⟩)
    · exact hstart
    · exact absurd he List.not_mem_nil
  constructor
  case drawnOnce =>
    rintro id i j ⟨e, he, -⟩
    exact absurd he List.not_mem_nil
  case drawn => exact fun e he => absurd he List.not_mem_nil
  case keyed => exact h.keyed
  case placed => exact fun hrow => Or.inl hrow
  case one =>
    intro c c' id hc hc'
    obtain ⟨p, hp, rfl, rfl⟩ := hplaced hc
    obtain ⟨q, hq, rfl, hid⟩ := hplaced hc'
    exact h.distinct p hp q hq hid.symm
  case found => exact fun e he => absurd he List.not_mem_nil
  case deleted =>
    rintro c id ⟨e, he, -⟩
    exact absurd he List.not_mem_nil

/-- What was done with an identifier that a task drew, that task did. -/
theorem mem_exchangesOf_drew (h : Settled start s) {i : Nat} {id : Uuid} (hdrew : Drew s.log i id)
    {e : Event} (he : e ∈ s.log) (hown : Drew s.log e.task id) :
    e.exchange ∈ exchangesOf s.log i := by
  have htask : e.task = i := h.drawnOnce hown hdrew
  exact mem_exchangesOf.mpr ⟨e, he, htask, rfl⟩

/-- A grade has nothing to do with problems. -/
theorem graded (h : Settled start s) (id : Uuid) (g : Database.Grade)
    (results : List Database.ResultRow) : Settled start (s.graded id g results) :=
  ⟨h.drawnOnce, h.drawn, h.keyed, h.placed, h.one, h.found, h.deleted⟩

variable {i : Nat} {operation : Operation}

/-- The identifier of a row that is about to be inserted was drawn by the task, and nothing had it
    before. -/
theorem unplaced (h : Settled start s) (hnew : DrawsNew start s.log) {p : Problem}
    {next : Except Fault Unit → StoreProgram (Except Fault Json)}
    (hleads : Leads operation.run.run (exchangesOf s.log i)
      (.ask (.database (.insertProblem p)) next)) :
    Drew s.log i p.id ∧ p.contentKey = keyOf p.contestId p.id ∧
      ∀ contestId, ¬ Placed start s.log contestId p.id := by
  obtain ⟨new, rfl⟩ := hleads.mayAsk.insertProblem
  obtain ⟨id, hp, hexchanges⟩ := inserted_of_leads hleads
  have hid : p.id = id := by
    rw [hp]
    rfl
  have hdrew : Drew s.log i p.id := by
    rw [hid]
    apply drew_of_exchange
    rw [hexchanges]
    simp
  refine ⟨hdrew, by rw [hp]; rfl, fun contestId hplaced => ?_⟩
  rcases hplaced with ⟨q, hq, -, hsame⟩ | ⟨e, he, q, hinserted, -, hsame⟩
  · -- What is drawn is not the identifier of a problem of the start.
    obtain ⟨e, he, -, hdrawn⟩ := hdrew
    have hnone := hnew e he p.id hdrawn
    rw [Database.hasProblem, List.any_eq_false] at hnone
    exact hnone q hq (beq_iff_eq.mpr hsame)
  · -- Otherwise this task inserted the earlier row, but so far it has inserted nothing.
    have hfirst := h.drawn e he q hinserted
    rw [hsame] at hfirst
    have hmem := h.mem_exchangesOf_drew hdrew he hfirst
    rw [hexchanges, exchange_of_inserted? hinserted] at hmem
    simp at hmem

variable [ContentStore κ] {r : Regime} {call : Call} {answer : call.Answer} {stores : Stores κ}
  {next : call.Answer → StoreProgram (Except Fault Json)}

/-- Every call keeps it so. -/
theorem after (h : Settled start s) (hnew : DrawsNew start s.log)
    (hleads : Leads operation.run.run (exchangesOf s.log i) (.ask call next))
    (hans : Answered r s call answer stores) :
    Settled start (s.after ⟨i, operation, call, answer⟩ stores) := by
  have hfirst : ∀ p : Problem,
      (⟨call, answer⟩ : Exchange) = ⟨.database (.insertProblem p), Except.ok ()⟩ →
        Drew s.log i p.id ∧ p.contentKey = keyOf p.contestId p.id ∧
          ∀ contestId, ¬ Placed start s.log contestId p.id := by
    intro p hinsert
    cases hinsert
    exact h.unplaced hnew hleads
  have hrows : ∀ {c id}, stores.database.HasProblemOf c id →
      s.stores.database.HasProblemOf c id ∨ ∃ p, p.contestId = c ∧ p.id = id ∧
        (⟨i, operation, call, answer⟩ : Event).inserted? = some p := by
    intro c id hrow
    apply (hans.hasProblemOf hrow).imp_right
    rintro ⟨p, hcontest, hid, hinsert⟩
    exact ⟨p, hcontest, hid, inserted?_of_exchange hinsert⟩
  constructor
  case drawnOnce =>
    intro id j k hj hk
    rcases drew_append.mp hj with hj | ⟨htask, hdrawn⟩
    · rcases drew_append.mp hk with hk | ⟨-, hdrawn⟩
      · exact h.drawnOnce hj hk
      · exact absurd hj (hans.not_drew hdrawn j)
    · rcases drew_append.mp hk with hk | ⟨htask', -⟩
      · exact absurd hk (hans.not_drew hdrawn k)
      · exact htask.symm.trans htask'
  case drawn =>
    intro e he p hinserted
    apply drew_append.mpr
    left
    rcases List.mem_append.mp he with hold | hlast
    · exact h.drawn e hold p hinserted
    · rw [List.mem_singleton.mp hlast] at hinserted ⊢
      exact (hfirst p (exchange_of_inserted? hinserted)).1
  case keyed =>
    intro p hp
    rcases hans.place_of_mem hp with ⟨q, hq, hplace⟩ | hinsert
    · have hkey := h.keyed q hq
      simp only [place, Prod.mk.injEq] at hplace
      rw [← hplace.1, ← hplace.2.1, ← hplace.2.2]
      exact hkey
    · exact (hfirst p hinsert).2.1
  case placed =>
    intro c id hrow
    rcases hrows hrow with hold | ⟨p, hcontest, hid, hinserted⟩
    · exact (h.placed hold).append _
    · exact placed_append.mpr (Or.inr ⟨p, hinserted, hcontest, hid⟩)
  case one =>
    intro c c' id hc hc'
    rcases placed_append.mp hc with hc | ⟨p, hinserted, hcontest, hid⟩
    · rcases placed_append.mp hc' with hc' | ⟨p, hinserted, -, rfl⟩
      · exact h.one hc hc'
      · exact absurd hc ((hfirst p (exchange_of_inserted? hinserted)).2.2 c)
    · rcases placed_append.mp hc' with hc' | ⟨q, hinserted', hcontest', -⟩
      · rw [← hid] at hc'
        exact absurd hc' ((hfirst p (exchange_of_inserted? hinserted)).2.2 c')
      · -- Only one row is inserted by the call.
        rw [hinserted, Option.some_inj] at hinserted'
        rw [← hcontest, ← hcontest', hinserted']
  case found =>
    intro e he c id q hfound
    rcases List.mem_append.mp he with hold | hlast
    · obtain ⟨hplaced, hkey⟩ := h.found e hold c id q hfound
      exact ⟨hplaced.append _, hkey⟩
    · rw [List.mem_singleton.mp hlast] at hfound
      cases hfound
      have hfind : s.stores.database.problem? c id = some q := Except.ok.inj hans.database_ok.1
      obtain ⟨hq, rfl, rfl⟩ := Database.mem_of_problem? hfind
      exact ⟨(h.placed ⟨q, hq, rfl, rfl⟩).append _, h.keyed q hq⟩
  case deleted =>
    intro c id hdeleted
    rcases deleted_append.mp hdeleted with hold | ⟨-, hremove⟩
    · obtain ⟨hplaced, hgone⟩ := h.deleted hold
      refine ⟨hplaced.append _, fun hrow => ?_⟩
      rcases hrows hrow with hrow | ⟨p, -, rfl, hinserted⟩
      · exact hgone hrow
      · -- The identifier was used up when the row of the deleted problem was inserted.
        exact (hfirst p (exchange_of_inserted? hinserted)).2.2 c hplaced
    · cases hremove
      obtain ⟨hrow, hgone⟩ := hans.effect.1.not_hasProblemOf_removed
      exact ⟨(h.placed hrow).append _, hgone⟩

end Settled

end Problem

end ContestPlatform
