import ContestPlatform.Proofs.ContentKeys
import ContestPlatform.Proofs.ContentMap
import ContestPlatform.Proofs.Interleaving
import ContestPlatform.Proofs.ProblemRows
import ContestPlatform.Problem.Json

/-!
# What the writers of problems promise each other

A problem has a row in the database and a document in the content store, and no transaction covers
both. What keeps them together is an order of calls that all writers follow:

- only the task that drew an identifier inserts a row with it, and it does so once, after it wrote
  the document;
- the document of an identifier is touched only by the task that drew it, as long as there was no
  row with it, and by others only afterwards;
- a row that was removed never comes back, so a document may be removed once its row is gone.

A document without a row has to be accounted for. Either a task still owes the store to look after
it (`debt`), or it was written for a row that the database rejected (`Rejected`).
-/

namespace ContestPlatform

open Interleaving

namespace Interleaving.Event

/-- The row that was inserted, if the call was for one and succeeded. -/
def inserted? : Event → Option Problem
  | ⟨_, _, .database (.insertProblem p), .ok ()⟩ => some p
  | _ => none

/-- The key of the document that the task of a call has to look after once it is answered, given
    the one before. A document that was written may have no row yet, or none any more; a row that
    was removed leaves its document behind. -/
def debtAfter : Event → Option String → Option String
  | ⟨_, _, .content (.put key _ _), .ok ()⟩, _ => some key
  | ⟨_, _, .content (.delete _), .ok ()⟩, _ => none
  | ⟨_, _, .database (.insertProblem _), _⟩, _ => none
  | ⟨_, _, .database (.replaceProblem _), .ok true⟩, _ => none
  | ⟨_, _, .database (.removeProblem contestId id), .ok true⟩, _ =>
    some (Problem.keyOf contestId id)
  | _, debt => debt

end Interleaving.Event

namespace Statements

variable {κ : Type}

/-! ## What the log tells -/

/-- A row with an identifier was inserted. -/
def Born (log : List Event) (id : Uuid) : Prop :=
  ∃ e ∈ log, ∃ p, e.inserted? = some p ∧ p.id = id

theorem born_append {log : List Event} {e : Event} {id : Uuid} :
    Born (log ++ [e]) id ↔ Born log id ∨ ∃ p, e.inserted? = some p ∧ p.id = id := by
  simp only [Born, List.mem_append, List.mem_singleton, or_and_right, exists_or, exists_eq_left]

/-- The key of the document that a task has to look after. -/
def debt (log : List Event) (i : Nat) : Option String :=
  log.foldl (fun debt e => if e.task = i then e.debtAfter debt else debt) none

theorem debt_append (log : List Event) (e : Event) (i : Nat) :
    debt (log ++ [e]) i = if e.task = i then e.debtAfter (debt log i) else debt log i := by
  rw [debt, List.foldl_append]
  rfl

theorem debt_append_self (log : List Event) (e : Event) :
    debt (log ++ [e]) e.task = e.debtAfter (debt log e.task) := by
  rw [debt_append, if_pos rfl]

theorem debt_append_ne {log : List Event} {e : Event} {i : Nat} (h : e.task ≠ i) :
    debt (log ++ [e]) i = debt log i := by
  rw [debt_append, if_neg h]

theorem debt_eq_none {log : List Event} {i : Nat} (h : ∀ e ∈ log, e.task ≠ i) :
    debt log i = none := by
  induction log with
  | nil => rfl
  | cons e log ih =>
    rw [debt, List.foldl_cons, if_neg (h e List.mem_cons_self)]
    exact ih fun e' he' => h e' (List.mem_cons_of_mem e he')

/-- A text was written by the creation of a problem whose row the database rejected. -/
def Rejected (log : List Event) (contestId id : Uuid) (text : String) : Prop :=
  ∃ task new row fault, row.contestId = contestId ∧ row.id = id ∧
    ⟨task, .createProblem contestId new,
      .content (.put (Problem.keyOf contestId id) text .createOnly), .ok ()⟩ ∈ log ∧
    ⟨task, .createProblem contestId new, .database (.insertProblem row), .error fault⟩ ∈ log

theorem Rejected.append {log : List Event} {contestId id : Uuid} {text : String}
    (h : Rejected log contestId id text) (e : Event) :
    Rejected (log ++ [e]) contestId id text := by
  obtain ⟨task, new, row, fault, hcontest, hid, hput, hinsert⟩ := h
  exact ⟨task, new, row, fault, hcontest, hid, List.mem_append_left _ hput,
    List.mem_append_left _ hinsert⟩

/-! ## Rows and documents -/

/-- A text that a statement can be read from. -/
def IsDocument (text : String) : Prop :=
  ∃ document, ProblemDocument.ofText? text = some document

/-- There is a row of a problem. -/
def HasRow (s : Shared κ) (contestId id : Uuid) : Prop :=
  s.stores.database.HasProblemOf contestId id

/-- A document is accounted for: its problem has a row, a task has to look after it, or it was
    written for a row that the database rejected. -/
def Covered (s : Shared κ) (contestId id : Uuid) (text : String) : Prop :=
  HasRow s contestId id ∨ (∃ i, debt s.log i = some (Problem.keyOf contestId id)) ∨
    Rejected s.log contestId id text

/-- What was accounted for stays so, if the row does and what the task of the call had to look
    after does. -/
theorem Covered.after {s : Shared κ} {e : Event} {stores : Stores κ} {contestId id : Uuid}
    {text : String} (h : Covered s contestId id text)
    (hrow : HasRow s contestId id → Covered (s.after e stores) contestId id text)
    (hdebt : debt s.log e.task = some (Problem.keyOf contestId id) →
      Covered (s.after e stores) contestId id text) :
    Covered (s.after e stores) contestId id text := by
  rcases h with h | ⟨i, hi⟩ | h
  · exact hrow h
  · -- What another task has to look after stays the same.
    by_cases htask : e.task = i
    · subst htask
      exact hdebt hi
    · refine Or.inr (Or.inl ⟨i, ?_⟩)
      rw [Shared.after_log, debt_append_ne htask, hi]
  · exact Or.inr (Or.inr (h.append e))

variable [LawfulContentStore κ]

/-- The texts that the content store keeps. -/
def texts (s : Shared κ) : Content.Map :=
  LawfulContentStore.texts s.stores.content

/-- What holds between any two calls. -/
structure Inv (s : Shared κ) : Prop where
  drawnOnce : ∀ {id i j}, Drew s.log i id → Drew s.log j id → i = j
  bornDrawn : ∀ {id}, Born s.log id → ∃ i, Drew s.log i id
  keyed : s.stores.database.Keyed
  born : ∀ {contestId id}, HasRow s contestId id → Born s.log id
  /-- A row never points at missing content. -/
  stated : ∀ {contestId id}, HasRow s contestId id →
    ∃ text, texts s (Problem.keyOf contestId id) = some text ∧ IsDocument text
  covered : ∀ {contestId id text}, texts s (Problem.keyOf contestId id) = some text →
    Covered s contestId id text

/-- What a call may do to the rows and documents of others. -/
structure Move (s : Shared κ) (e : Event) (s' : Shared κ) : Prop where
  /-- A new row has an identifier that the task drew, and is the first with it. -/
  rows : ∀ {contestId id}, HasRow s' contestId id →
    HasRow s contestId id ∨ Drew s.log e.task id ∧ ¬ Born s.log id
  /-- A document that changes belongs to an identifier that the task drew, or to one that has or had
      a row. -/
  documents : ∀ {contestId id},
    texts s' (Problem.keyOf contestId id) = texts s (Problem.keyOf contestId id) ∨
      Drew s.log e.task id ∨ Born s.log id
  births : ∀ {id}, Born s'.log id → Born s.log id ∨ Drew s.log e.task id

/-- The protocol of the writers of problems. -/
def protocol (κ : Type) [LawfulContentStore κ] : Protocol κ where
  inv := Inv
  move := Move

theorem inv_start {stores : Stores κ} (hrows : stores.database.problems = [])
    (htexts : ∀ key, LawfulContentStore.texts stores.content key = none) :
    Inv (⟨stores, []⟩ : Shared κ) := by
  have hnone : ∀ {c id}, ¬ HasRow (⟨stores, []⟩ : Shared κ) c id := by
    rintro c id ⟨p, hp, -⟩
    rw [hrows] at hp
    exact absurd hp List.not_mem_nil
  refine ⟨?_, ?_, ?_, fun h => absurd h hnone, fun h => absurd h hnone, ?_⟩
  · rintro id i j ⟨e, he, -⟩
    exact absurd he List.not_mem_nil
  · rintro id ⟨e, he, -⟩
    exact absurd he List.not_mem_nil
  · intro p hp
    rw [hrows] at hp
    exact absurd hp List.not_mem_nil
  · intro c id text h
    rw [texts, htexts] at h
    exact nomatch h

/-! ## Single calls -/

section Calls

variable {s : Shared κ} {e : Event} {stores : Stores κ}

/-- What has to be shown of a call for it to keep to the protocol. -/
private theorem Inv.step (hi : Inv s)
    (hdrawn : ∀ id, e.drawn? = some id → ∀ i, ¬ Drew s.log i id)
    (hinserted : ∀ p, e.inserted? = some p → Drew s.log e.task p.id)
    (hkeyed : stores.database.Keyed)
    (hrows : ∀ {c id}, HasRow (s.after e stores) c id →
      HasRow s c id ∨ Drew s.log e.task id ∧ ¬ Born s.log id ∧ Born (s.log ++ [e]) id)
    (hstated : ∀ {c id}, HasRow (s.after e stores) c id →
      ∃ text, texts (s.after e stores) (Problem.keyOf c id) = some text ∧ IsDocument text)
    (hdocuments : ∀ {c id}, texts (s.after e stores) (Problem.keyOf c id) =
        texts s (Problem.keyOf c id) ∨ Drew s.log e.task id ∨ Born s.log id)
    (hcovered : ∀ {c id text}, texts (s.after e stores) (Problem.keyOf c id) = some text →
      Covered (s.after e stores) c id text) :
    Inv (s.after e stores) ∧ Move s e (s.after e stores) := by
  -- Only an insertion makes an identifier one that has or had a row.
  have hbirths : ∀ {id}, Born (s.log ++ [e]) id → Born s.log id ∨ Drew s.log e.task id := by
    intro id h
    rcases born_append.mp h with hold | ⟨p, hp, rfl⟩
    · exact Or.inl hold
    · exact Or.inr (hinserted p hp)
  refine ⟨⟨?_, ?_, hkeyed, ?_, hstated, hcovered⟩, ⟨?_, hdocuments, hbirths⟩⟩
  · intro id i j h₁ h₂
    rcases drew_append.mp h₁ with h₁ | ⟨ht₁, h₁⟩ <;> rcases drew_append.mp h₂ with h₂ | ⟨ht₂, h₂⟩
    · exact hi.drawnOnce h₁ h₂
    -- An identifier that is drawn now was drawn by nobody before.
    · exact absurd h₁ (hdrawn id h₂ i)
    · exact absurd h₂ (hdrawn id h₁ j)
    · exact ht₁.symm.trans ht₂
  · intro id h
    rcases hbirths h with h | h
    · obtain ⟨i, hdrew⟩ := hi.bornDrawn h
      exact ⟨i, drew_append.mpr (Or.inl hdrew)⟩
    · exact ⟨e.task, drew_append.mpr (Or.inl h)⟩
  · intro c id h
    rcases hrows h with h | ⟨-, -, hborn⟩
    · exact born_append.mpr (Or.inl (hi.born h))
    · exact hborn
  · intro c id h
    exact (hrows h).imp_right fun ⟨hdrew, hnot, _⟩ => ⟨hdrew, hnot⟩

/-- A call that changes neither rows nor documents; it may change other texts. What its task had to
    look after has to be accounted for. -/
theorem Inv.aside (hi : Inv s) (e : Event)
    (hrows : stores.database.problems.map Problem.place =
      s.stores.database.problems.map Problem.place)
    (htexts : ∀ c id, texts (s.after e stores) (Problem.keyOf c id) = texts s (Problem.keyOf c id))
    (hdrawn : ∀ id, e.drawn? = some id → ∀ i, ¬ Drew s.log i id) (hinserted : e.inserted? = none)
    (hdebt : ∀ {c id text}, debt s.log e.task = some (Problem.keyOf c id) →
      texts s (Problem.keyOf c id) = some text → Covered (s.after e stores) c id text) :
    Inv (s.after e stores) ∧ Move s e (s.after e stores) := by
  have hrow : ∀ {c id}, HasRow (s.after e stores) c id ↔ HasRow s c id :=
    Database.hasProblemOf_congr hrows
  refine hi.step hdrawn (by simp [hinserted]) ((Database.keyed_congr hrows).mpr hi.keyed)
    (fun h => Or.inl (hrow.mp h)) ?_ (Or.inl (htexts _ _)) ?_
  · intro c id h
    rw [htexts]
    exact hi.stated (hrow.mp h)
  · intro c id text h
    rw [htexts] at h
    exact (hi.covered h).after (fun hold => Or.inl (hrow.mpr hold)) fun hdebt' => hdebt hdebt' h

/-- A call that changes neither rows nor texts. What its task had to look after has to be accounted
    for. -/
theorem Inv.quiet (hi : Inv s) (e : Event)
    (hrows : stores.database.problems.map Problem.place =
      s.stores.database.problems.map Problem.place)
    (htexts : texts (s.after e stores) = texts s)
    (hdrawn : ∀ id, e.drawn? = some id → ∀ i, ¬ Drew s.log i id) (hinserted : e.inserted? = none)
    (hdebt : ∀ {c id text}, debt s.log e.task = some (Problem.keyOf c id) →
      texts s (Problem.keyOf c id) = some text → Covered (s.after e stores) c id text) :
    Inv (s.after e stores) ∧ Move s e (s.after e stores) :=
  hi.aside e hrows (fun _ _ => congrFun htexts _) hdrawn hinserted hdebt

/-- A call that changes nothing that the writers speak of. -/
theorem Inv.still (hi : Inv s) (e : Event)
    (hrows : stores.database.problems.map Problem.place =
      s.stores.database.problems.map Problem.place)
    (htexts : texts (s.after e stores) = texts s)
    (hdrawn : ∀ id, e.drawn? = some id → ∀ i, ¬ Drew s.log i id) (hinserted : e.inserted? = none)
    (hdebt : ∀ debt, e.debtAfter debt = debt) :
    (Inv (s.after e stores) ∧ Move s e (s.after e stores)) ∧
      debt (s.log ++ [e]) e.task = debt s.log e.task := by
  have hsame : debt (s.log ++ [e]) e.task = debt s.log e.task := by
    rw [debt_append_self, hdebt]
  refine ⟨hi.quiet e hrows htexts hdrawn hinserted fun h _ => ?_, hsame⟩
  exact Or.inr (Or.inl ⟨e.task, hsame.trans h⟩)

/-- A call that writes or removes one document. A row of the problem needs a document, and the task
    has no other document to look after. -/
theorem Inv.document (hi : Inv s) (e : Event) {contestId id : Uuid} {text? : Option String}
    (hrows : stores.database = s.stores.database)
    (htexts : texts (s.after e stores) =
      Function.update (texts s) (Problem.keyOf contestId id) text?)
    (hdrawn : e.drawn? = none) (hinserted : e.inserted? = none)
    (hmine : Drew s.log e.task id ∨ Born s.log id)
    (hstated : HasRow s contestId id → ∃ text, text? = some text ∧ IsDocument text)
    (hcovered : ∀ text, text? = some text → Covered (s.after e stores) contestId id text)
    (hdebt : ∀ key, debt s.log e.task = some key → key = Problem.keyOf contestId id) :
    Inv (s.after e stores) ∧ Move s e (s.after e stores) := by
  have hrow : ∀ {c i}, HasRow (s.after e stores) c i ↔ HasRow s c i := by
    intro c i
    rw [HasRow, Shared.after_stores, hrows, HasRow]
  -- Every other document stays as it is.
  have hother : ∀ {c i}, ¬ (c = contestId ∧ i = id) →
      texts (s.after e stores) (Problem.keyOf c i) = texts s (Problem.keyOf c i) := by
    intro c i hne
    rw [htexts, Function.update_of_ne (mt Problem.keyOf_inj.mp hne)]
  have hthis : texts (s.after e stores) (Problem.keyOf contestId id) = text? := by
    rw [htexts, Function.update_self]
  refine hi.step (by simp [hdrawn]) (by simp [hinserted]) (hrows ▸ hi.keyed)
    (fun h => Or.inl (hrow.mp h)) ?_ ?_ ?_
  · intro c i h
    by_cases hplace : c = contestId ∧ i = id
    · obtain ⟨rfl, rfl⟩ := hplace
      rw [hthis]
      exact hstated (hrow.mp h)
    · rw [hother hplace]
      exact hi.stated (hrow.mp h)
  · intro c i
    by_cases hplace : c = contestId ∧ i = id
    · obtain ⟨rfl, rfl⟩ := hplace
      exact Or.inr hmine
    · exact Or.inl (hother hplace)
  · intro c i text h
    by_cases hplace : c = contestId ∧ i = id
    · obtain ⟨rfl, rfl⟩ := hplace
      rw [hthis] at h
      exact hcovered text h
    · -- The task has no other document to look after, so all others are accounted for as before.
      rw [hother hplace] at h
      exact (hi.covered h).after (fun hold => Or.inl (hrow.mpr hold))
        fun hdebt' => absurd (Problem.keyOf_inj.mp (hdebt _ hdebt')) hplace

/-- The insertion of a row whose document was written before, by the task that drew its
    identifier. -/
theorem Inv.inserted (hi : Inv s) (e : Event) {p : Problem}
    (hrows : stores.database.problems = s.stores.database.problems ++ [p])
    (htexts : texts (s.after e stores) = texts s)
    (hdrawn : e.drawn? = none) (hinserted : e.inserted? = some p)
    (hkeyed : p.contentKey = Problem.keyOf p.contestId p.id)
    (hdrew : Drew s.log e.task p.id) (hunborn : ¬ Born s.log p.id)
    (hstated : ∃ text, texts s (Problem.keyOf p.contestId p.id) = some text ∧ IsDocument text)
    (hdebt : ∀ key, debt s.log e.task = some key → key = Problem.keyOf p.contestId p.id) :
    Inv (s.after e stores) ∧ Move s e (s.after e stores) := by
  have hrow : ∀ {c i}, HasRow (s.after e stores) c i ↔
      HasRow s c i ∨ p.contestId = c ∧ p.id = i := by
    intro c i
    simp only [HasRow, Database.HasProblemOf, Shared.after_stores, hrows, List.mem_append,
      List.mem_singleton, or_and_right, exists_or, exists_eq_left]
  refine hi.step (by simp [hdrawn]) ?_ ?_ ?_ ?_ (Or.inl (by rw [htexts])) ?_
  · intro q h
    rw [hinserted, Option.some_inj] at h
    exact h ▸ hdrew
  · intro q hq
    rw [hrows, List.mem_append, List.mem_singleton] at hq
    rcases hq with hq | rfl
    · exact hi.keyed q hq
    · exact hkeyed
  · intro c i h
    rcases hrow.mp h with hold | ⟨-, rfl⟩
    · exact Or.inl hold
    · exact Or.inr ⟨hdrew, hunborn, born_append.mpr (Or.inr ⟨p, hinserted, rfl⟩)⟩
  · intro c i h
    rw [htexts]
    rcases hrow.mp h with hold | ⟨rfl, rfl⟩
    · exact hi.stated hold
    · exact hstated
  · intro c i text h
    rw [htexts] at h
    refine (hi.covered h).after (fun hold => Or.inl (hrow.mpr (Or.inl hold))) fun hdebt' => ?_
    -- The document that the task had to look after has a row now.
    obtain ⟨rfl, rfl⟩ := Problem.keyOf_inj.mp (hdebt _ hdebt')
    exact Or.inl (hrow.mpr (Or.inr ⟨rfl, rfl⟩))

/-- The removal of a row: its document is left to the task that removed it. -/
theorem Inv.removed (hi : Inv s) (e : Event) {contestId id : Uuid}
    (hrows : stores.database.problems = s.stores.database.problems.filter fun p =>
      !Database.isProblemOf contestId id p)
    (htexts : texts (s.after e stores) = texts s)
    (hdrawn : e.drawn? = none) (hinserted : e.inserted? = none)
    (hidle : debt s.log e.task = none)
    (hdebt : debt (s.log ++ [e]) e.task = some (Problem.keyOf contestId id)) :
    Inv (s.after e stores) ∧ Move s e (s.after e stores) := by
  have hrow : ∀ {c i}, HasRow (s.after e stores) c i ↔
      HasRow s c i ∧ ¬ (c = contestId ∧ i = id) :=
    Database.hasProblemOf_filter hrows
  refine hi.step (by simp [hdrawn]) (by simp [hinserted]) ?_ (fun h => Or.inl (hrow.mp h).1) ?_
    (Or.inl (by rw [htexts])) ?_
  · intro p hp
    rw [hrows] at hp
    exact hi.keyed p (List.mem_filter.mp hp).1
  · intro c i h
    rw [htexts]
    exact hi.stated (hrow.mp h).1
  · intro c i text h
    rw [htexts] at h
    refine (hi.covered h).after (fun hold => ?_) fun hdebt' => ?_
    · -- Of all rows that accounted for their documents only one is gone.
      by_cases hplace : c = contestId ∧ i = id
      · obtain ⟨rfl, rfl⟩ := hplace
        exact Or.inr (Or.inl ⟨e.task, hdebt⟩)
      · exact Or.inl (hrow.mpr ⟨hold, hplace⟩)
    · rw [hidle] at hdebt'
      exact nomatch hdebt'

end Calls

end Statements

end ContestPlatform
