import ContestPlatform.Proofs.Answers
import ContestPlatform.Proofs.DocumentText
import ContestPlatform.Proofs.ProblemCalls
import ContestPlatform.Proofs.StatementProtocol

/-!
# The writers of problems keep their promises

For each call that creating, changing and deleting a problem and deleting a contest make, a rule
says what the task has to know before the call and what it knows after each answer. The outlines of
the four operations follow the order of their calls.
-/

namespace ContestPlatform.Statements

open Interleaving

variable {κ : Type} [LawfulContentStore κ]

/-! ## What a task may know -/

/-- The task has no document to look after. -/
def Idle (i : Nat) (s : Shared κ) : Prop :=
  debt s.log i = none

/-- The task has to look after a document. -/
def Owes (i : Nat) (key : String) (s : Shared κ) : Prop :=
  debt s.log i = some key

/-- The task drew an identifier, and there was no row with it. -/
def Owns (i : Nat) (id : Uuid) (s : Shared κ) : Prop :=
  Drew s.log i id ∧ ¬ Born s.log id

/-- There was a row of the problem, and it is gone. -/
def Gone (contestId id : Uuid) (s : Shared κ) : Prop :=
  Born s.log id ∧ ¬ HasRow s contestId id

/-- The task wrote the document of an identifier that it owns. -/
structure Prepared (i : Nat) (contestId id : Uuid) (new : NewProblem) (s : Shared κ) : Prop where
  owes : Owes i (Problem.keyOf contestId id) s
  owns : Owns i id s
  written : texts s (Problem.keyOf contestId id) = some (Problem.document new.description)
  logged : ⟨i, .createProblem contestId new, .content (.put (Problem.keyOf contestId id)
    (Problem.document new.description) .createOnly), .ok ()⟩ ∈ s.log

theorem stable_debt (i : Nat) (key? : Option String) :
    (protocol κ).Stable i fun s => debt s.log i = key? := by
  intro s e stores hne _ _ _ h
  rw [Shared.after_log, debt_append_ne hne]
  exact h

theorem stable_idle (i : Nat) : (protocol κ).Stable i (Idle i) :=
  stable_debt i none

theorem stable_owes (i : Nat) (key : String) : (protocol κ).Stable i (Owes i key) :=
  stable_debt i (some key)

theorem stable_born (i : Nat) (id : Uuid) : (protocol κ).Stable i fun s => Born s.log id :=
  Protocol.Stable.of_step fun _ _ _ h => born_append.mpr (Or.inl h)

/-- Nobody else inserts a row with an identifier that the task drew. -/
theorem stable_owns (i : Nat) (id : Uuid) : (protocol κ).Stable i (Owns i id) := by
  intro s e stores hne hi _ hmove h
  refine ⟨drew_append.mpr (Or.inl h.1), fun hborn => ?_⟩
  rcases hmove.births hborn with hborn | hdrew
  · exact h.2 hborn
  · exact hne (hi.drawnOnce hdrew h.1)

/-- A row that is gone does not come back. -/
theorem stable_gone (i : Nat) (contestId id : Uuid) :
    (protocol κ).Stable i (Gone contestId id) := by
  intro s e stores _ _ _ hmove h
  refine ⟨born_append.mpr (Or.inl h.1), fun hrow => ?_⟩
  rcases hmove.rows hrow with hrow | ⟨-, hunborn⟩
  · exact h.2 hrow
  · exact hunborn h.1

/-- Nobody else touches the document of an identifier that the task owns. -/
theorem stable_prepared (i : Nat) (contestId id : Uuid) (new : NewProblem) :
    (protocol κ).Stable i (Prepared i contestId id new) := by
  intro s e stores hne hi hi' hmove h
  refine ⟨stable_owes i _ s e stores hne hi hi' hmove h.owes,
    stable_owns i id s e stores hne hi hi' hmove h.owns, ?_, List.mem_append_left _ h.logged⟩
  have hdocument := @hmove.documents contestId id
  -- If the document changed, the task that changed it drew the identifier or met a row with it.
  rcases hdocument with hsame | hdrew | hborn
  · exact hsame.trans h.written
  · exact absurd (hi.drawnOnce hdrew h.owns.1) hne
  · exact absurd hborn h.owns.2

/-! ## Rules for single calls -/

/-- The only calls that may fail are the insertions of problems. -/
def OnlyInsertsFail (r : Regime) : Prop :=
  ∀ call, r.mayFail call → ∃ p, call = .database (.insertProblem p)

/-- An outline in which the task leaves nothing behind, unless calls fail that should not. -/
abbrev Walks (κ : Type) [LawfulContentStore κ] (r : Regime) (i : Nat) (operation : Operation) :
    (Shared κ → Prop) → StoreProgram (Except Fault Json) → Prop :=
  (protocol κ).Outline r i operation fun _ s => OnlyInsertsFail r → Idle i s

variable {r : Regime} {i : Nat} {operation : Operation}

theorem walks_done (result : Except Fault Json) :
    Walks κ r i operation (Idle i) (.done result) :=
  ⟨stable_idle i, fun _ _ hidle _ => hidle⟩

theorem walks_lost (result : Except Fault Json) :
    Walks κ r i operation (fun _ => ¬ OnlyInsertsFail r) (.done result) :=
  ⟨Protocol.stable_const i _, fun _ _ hlost honly => absurd honly hlost⟩

theorem not_onlyInsertsFail {call : Call} (hmay : r.mayFail call)
    (hcall : ∀ p, call ≠ .database (.insertProblem p)) : ¬ OnlyInsertsFail r := by
  intro honly
  obtain ⟨p, hp⟩ := honly call hmay
  exact hcall p hp

/-- A call of the content store that fails changes nothing that the writers speak of. -/
theorem Inv.content_error {s : Shared κ} {stores : Stores κ} {call : Content.Call}
    {fault : ContentFault} (hi : Inv s) (i : Nat) (operation : Operation)
    (hans : Answered r s (.content call) (.error fault) stores) :
    let e : Event := ⟨i, operation, .content call, .error fault⟩
    (Inv (s.after e stores) ∧ Move s e (s.after e stores)) ∧
      debt (s.log ++ [e]) i = debt s.log i := by
  intro e
  obtain ⟨hdatabase, htexts, -⟩ := hans.content_error
  have hdebt : ∀ debt, e.debtAfter debt = debt := by
    intro debt
    cases call <;> rfl
  exact hi.still e (congrArg (·.problems.map Problem.place) hdatabase) htexts
    (fun _ h => nomatch h) rfl hdebt

/-- A call that keeps the rows of problems. -/
theorem walks_keep {call : Database.Call} {next : call.Answer → StoreProgram (Except Fault Json)}
    (hkeep : ∀ db : Database, (db.answer call).2.problems = db.problems)
    (hdebt : ∀ answer debt,
      (⟨i, operation, .database call, answer⟩ : Event).debtAfter debt = debt)
    (hinserted : ∀ answer, (⟨i, operation, .database call, answer⟩ : Event).inserted? = none)
    (hnext : ∀ answer, Walks κ r i operation (Idle i) (next answer)) :
    Walks κ r i operation (Idle i) (.ask (.database call) next) := by
  refine ⟨stable_idle i, fun s answer stores hi hidle hans => ?_⟩
  intro e
  obtain ⟨hcontent, hrows⟩ := hans.problems_eq hkeep
  obtain ⟨⟨hinv, hmove⟩, hsame⟩ := hi.still e (congrArg _ hrows)
    (congrArg LawfulContentStore.texts hcontent) (fun _ h => nomatch h) (hinserted answer)
    (hdebt answer)
  exact ⟨hinv, hmove, Idle i, hsame.trans hidle, hnext answer⟩

/-- A problem that is found has a row with its own key. -/
theorem walks_find {contestId id : Uuid}
    {next : Except Fault (Option Problem) → StoreProgram (Except Fault Json)}
    (hfault : ∀ fault, Walks κ r i operation (Idle i) (next (.error fault)))
    (hnone : Walks κ r i operation (Idle i) (next (.ok none)))
    (hsome : ∀ p : Problem, p.place = (contestId, id, Problem.keyOf contestId id) →
      Walks κ r i operation (fun s => Idle i s ∧ Born s.log id) (next (.ok (some p)))) :
    Walks κ r i operation (Idle i) (.ask (.database (.findProblem contestId id)) next) := by
  refine ⟨stable_idle i, fun s answer stores hi hidle hans => ?_⟩
  intro e
  obtain ⟨hcontent, hrows⟩ := hans.problems_eq fun _ => rfl
  obtain ⟨⟨hinv, hmove⟩, hsame⟩ := hi.still e (congrArg _ hrows)
    (congrArg LawfulContentStore.texts hcontent) (fun _ h => nomatch h) rfl fun _ => rfl
  refine ⟨hinv, hmove, ?_⟩
  rcases answer with fault | (_ | p)
  · exact ⟨Idle i, hsame.trans hidle, hfault fault⟩
  · exact ⟨Idle i, hsame.trans hidle, hnone⟩
  · -- The row that is found was there before the call, so it was inserted some time ago.
    obtain ⟨hp, rfl, rfl⟩ := Database.mem_of_problem? (Except.ok.inj hans.database_ok.1)
    have hborn : Born s.log p.id := hi.born ⟨p, hp, rfl, rfl⟩
    refine ⟨_, ⟨hsame.trans hidle, born_append.mpr (Or.inl hborn)⟩, hsome p ?_⟩
    rw [Problem.place, hi.keyed p hp]

/-- An identifier that is drawn belongs to the task. -/
theorem walks_fresh {next : Uuid → StoreProgram (Except Fault Json)}
    (hnext : ∀ id, Walks κ r i operation (fun s => Idle i s ∧ Owns i id s) (next id)) :
    Walks κ r i operation (Idle i) (.ask .freshId next) := by
  refine ⟨stable_idle i, fun s answer stores hi hidle hans => ?_⟩
  intro e
  cases hans with
  | fresh _ hnew =>
    obtain ⟨⟨hinv, hmove⟩, hsame⟩ := hi.still e rfl rfl
      (fun id h => Option.some.inj h ▸ hnew) rfl fun _ => rfl
    refine ⟨hinv, hmove, _, ⟨hsame.trans hidle, ?_, ?_⟩, hnext answer⟩
    · exact drew_append.mpr (Or.inr ⟨rfl, rfl⟩)
    · -- A row with the identifier would have been inserted by a task that drew it.
      intro hborn
      rcases born_append.mp hborn with hborn | ⟨p, hp, -⟩
      · obtain ⟨j, hdrew⟩ := hi.bornDrawn hborn
        exact hnew j hdrew
      · exact nomatch hp
  | trouble _ _ hfail _ => exact hfail.elim

theorem isDocument_document (description : String) :
    IsDocument (Problem.document description) :=
  ⟨_, ProblemDocument.ofText?_print _⟩

/-- The first document of a problem is written by the task that drew its identifier. -/
theorem walks_prepare {contestId id : Uuid} {new : NewProblem}
    {next : Except ContentFault Unit → StoreProgram (Except Fault Json)}
    (hfault : ∀ fault, Walks κ r i (.createProblem contestId new) (Idle i) (next (.error fault)))
    (hok : Walks κ r i (.createProblem contestId new) (Prepared i contestId id new)
      (next (.ok ()))) :
    Walks κ r i (.createProblem contestId new) (fun s => Idle i s ∧ Owns i id s)
      (.ask (.content (.put (Problem.keyOf contestId id) (Problem.document new.description)
        .createOnly)) next) := by
  refine ⟨(stable_idle i).and _ (stable_owns i id), fun s answer stores hi hown hans => ?_⟩
  obtain ⟨hidle, howns⟩ := hown
  intro e
  cases answer with
  | error fault =>
    obtain ⟨⟨hinv, hmove⟩, hsame⟩ := hi.content_error i (.createProblem contestId new) hans
    exact ⟨hinv, hmove, Idle i, hsame.trans hidle, hfault fault⟩
  | ok _ =>
    obtain ⟨hanswer, hdatabase, htexts⟩ := hans.content_ok
    rw [Content.Map.answer_put_ok hanswer] at htexts
    have howes : debt (s.log ++ [e]) i = some (Problem.keyOf contestId id) :=
      debt_append_self s.log e
    obtain ⟨hinv, hmove⟩ := hi.document e hdatabase htexts rfl rfl (Or.inl howns.1)
      (fun _ => ⟨_, rfl, isDocument_document _⟩) (fun _ _ => Or.inr (Or.inl ⟨i, howes⟩))
      (fun key h => nomatch hidle.symm.trans h)
    refine ⟨hinv, hmove, _, ⟨howes, ⟨?_, fun hborn => ?_⟩, ?_, ?_⟩, hok⟩
    · exact drew_append.mpr (Or.inl howns.1)
    · rcases born_append.mp hborn with hborn | ⟨p, hp, -⟩
      · exact howns.2 hborn
      · exact nomatch hp
    · rw [texts, Shared.after_stores, htexts, Function.update_self]
    · exact List.mem_append_right _ List.mem_cons_self

/-- A row is inserted by the task that wrote its document. If it is rejected, this accounts for the
    document. -/
theorem walks_insert {contestId id : Uuid} {new : NewProblem}
    {next : Except Fault Unit → StoreProgram (Except Fault Json)}
    (hnext : ∀ answer, Walks κ r i (.createProblem contestId new) (Idle i) (next answer)) :
    Walks κ r i (.createProblem contestId new) (Prepared i contestId id new)
      (.ask (.database (.insertProblem (Problem.ofNew contestId id new))) next) := by
  refine ⟨stable_prepared i contestId id new, fun s answer stores hi hprep hans => ?_⟩
  intro e
  have hidle : debt (s.log ++ [e]) i = none := debt_append_self s.log e
  -- The only document that the task has to look after is the one that it wrote.
  have howed : ∀ key, debt s.log i = some key → key = Problem.keyOf contestId id := by
    intro key h
    exact Option.some.inj (h.symm.trans hprep.owes)
  cases answer with
  | error fault =>
    obtain ⟨rfl, -⟩ := hans.database_error
    have hrejected : ∀ {c j text}, debt s.log i = some (Problem.keyOf c j) →
        texts s (Problem.keyOf c j) = some text → Covered (s.after e s.stores) c j text := by
      intro c j text hdebt htext
      obtain ⟨rfl, rfl⟩ := Problem.keyOf_inj.mp (howed _ hdebt)
      obtain rfl := Option.some.inj (hprep.written.symm.trans htext)
      -- The log tells that the task wrote the document and that its row was rejected.
      exact Or.inr (Or.inr ⟨i, new, _, fault, rfl, rfl, List.mem_append_left _ hprep.logged,
        List.mem_append_right _ List.mem_cons_self⟩)
    obtain ⟨hinv, hmove⟩ := hi.quiet e rfl rfl (fun _ h => nomatch h) rfl hrejected
    exact ⟨hinv, hmove, Idle i, hidle, hnext _⟩
  | ok _ =>
    obtain ⟨hanswer, hdatabase, hcontent⟩ := hans.database_ok
    have hrows : stores.database.problems =
        s.stores.database.problems ++ [Problem.ofNew contestId id new] := by
      rw [hdatabase, Database.insertProblem_ok hanswer]
    obtain ⟨hinv, hmove⟩ := hi.inserted e hrows (congrArg LawfulContentStore.texts hcontent) rfl rfl
      rfl hprep.owns.1 hprep.owns.2 ⟨_, hprep.written, isDocument_document _⟩ howed
    exact ⟨hinv, hmove, Idle i, hidle, hnext _⟩

/-- A document is written again for a problem that has or had a row. -/
theorem walks_overwrite {contestId id : Uuid} {description : String}
    {next : Except ContentFault Unit → StoreProgram (Except Fault Json)}
    (hfault : ∀ fault, Walks κ r i operation (Idle i) (next (.error fault)))
    (hok : Walks κ r i operation
      (fun s => Owes i (Problem.keyOf contestId id) s ∧ Born s.log id) (next (.ok ()))) :
    Walks κ r i operation (fun s => Idle i s ∧ Born s.log id)
      (.ask (.content (.put (Problem.keyOf contestId id) (Problem.document description) .overwrite))
        next) := by
  refine ⟨(stable_idle i).and _ (stable_born i id), fun s answer stores hi hborn hans => ?_⟩
  obtain ⟨hidle, hborn⟩ := hborn
  intro e
  cases answer with
  | error fault =>
    obtain ⟨⟨hinv, hmove⟩, hsame⟩ := hi.content_error i operation hans
    exact ⟨hinv, hmove, Idle i, hsame.trans hidle, hfault fault⟩
  | ok _ =>
    obtain ⟨hanswer, hdatabase, htexts⟩ := hans.content_ok
    rw [Content.Map.answer_put_ok hanswer] at htexts
    have howes : debt (s.log ++ [e]) i = some (Problem.keyOf contestId id) :=
      debt_append_self s.log e
    obtain ⟨hinv, hmove⟩ := hi.document e hdatabase htexts rfl rfl (Or.inr hborn)
      (fun _ => ⟨_, rfl, isDocument_document _⟩) (fun _ _ => Or.inr (Or.inl ⟨i, howes⟩))
      (fun key h => nomatch hidle.symm.trans h)
    exact ⟨hinv, hmove, _, ⟨howes, born_append.mpr (Or.inl hborn)⟩, hok⟩

/-- A row is replaced. If it is found, it accounts for a document that the task wrote; if it is
    gone, it stays so. -/
theorem walks_replace {problem : Problem} {key? : Option String}
    {next : Except Fault Bool → StoreProgram (Except Fault Json)}
    (howed : ∀ key ∈ key?, key = Problem.keyOf problem.contestId problem.id)
    (hfault : ∀ fault, Walks κ r i operation (fun _ => ¬ OnlyInsertsFail r) (next (.error fault)))
    (hfound : Walks κ r i operation (Idle i) (next (.ok true)))
    (hgone : Walks κ r i operation
      (fun s => debt s.log i = key? ∧ Gone problem.contestId problem.id s) (next (.ok false))) :
    Walks κ r i operation (fun s => debt s.log i = key? ∧ Born s.log problem.id)
      (.ask (.database (.replaceProblem problem)) next) := by
  refine ⟨(stable_debt i key?).and _ (stable_born i problem.id),
    fun s answer stores hi hborn hans => ?_⟩
  obtain ⟨hdebt, hborn⟩ := hborn
  intro e
  rcases answer with fault | found
  · obtain ⟨rfl, hmay⟩ := hans.database_error
    obtain ⟨⟨hinv, hmove⟩, -⟩ := hi.still e rfl rfl (fun _ h => nomatch h) rfl fun _ => rfl
    refine ⟨hinv, hmove, _, ?_, hfault fault⟩
    rcases hmay with hmay | ⟨herror, hkind⟩
    · exact not_onlyInsertsFail hmay fun _ h => nomatch h
    · -- The tables refuse texts that they cannot keep, and this counts as a failure.
      rw [Database.replaceProblem_error herror] at hkind
      exact absurd rfl hkind
  · obtain ⟨hanswer, hdatabase, hcontent⟩ := hans.database_ok
    obtain ⟨hiff, hplaces⟩ := Database.replaceProblem_ok hanswer
    rw [← hdatabase] at hplaces
    have htexts : texts (s.after e stores) = texts s := congrArg LawfulContentStore.texts hcontent
    have hrow : ∀ {c j}, HasRow (s.after e stores) c j ↔ HasRow s c j :=
      Database.hasProblemOf_congr hplaces
    cases found with
    | true =>
      have hcovered : ∀ {c j text}, debt s.log i = some (Problem.keyOf c j) →
          texts s (Problem.keyOf c j) = some text → Covered (s.after e stores) c j text := by
        intro c j text hdebt' _
        obtain ⟨rfl, rfl⟩ := Problem.keyOf_inj.mp (howed _ (hdebt.symm.trans hdebt'))
        exact Or.inl (hrow.mpr (hiff.mp rfl))
      obtain ⟨hinv, hmove⟩ := hi.quiet e hplaces htexts (fun _ h => nomatch h) rfl hcovered
      exact ⟨hinv, hmove, Idle i, debt_append_self s.log e, hfound⟩
    | false =>
      -- A row that was there once is not there now, so it is gone for good.
      obtain ⟨⟨hinv, hmove⟩, hsame⟩ := hi.still e hplaces htexts (fun _ h => nomatch h) rfl
        fun _ => rfl
      refine ⟨hinv, hmove, _, ⟨hsame.trans hdebt, born_append.mpr (Or.inl hborn), ?_⟩, hgone⟩
      exact fun h => nomatch hiff.mpr (hrow.mp h)

/-- A row is removed. If it was there, the task has to look after its document. -/
theorem walks_remove {contestId id : Uuid}
    {next : Except Fault Bool → StoreProgram (Except Fault Json)}
    (hfault : ∀ fault, Walks κ r i operation (Idle i) (next (.error fault)))
    (hnone : Walks κ r i operation (Idle i) (next (.ok false)))
    (hsome : Walks κ r i operation
      (fun s => debt s.log i = some (Problem.keyOf contestId id) ∧ Gone contestId id s)
      (next (.ok true))) :
    Walks κ r i operation (fun s => Idle i s ∧ Born s.log id)
      (.ask (.database (.removeProblem contestId id)) next) := by
  refine ⟨(stable_idle i).and _ (stable_born i id), fun s answer stores hi hborn hans => ?_⟩
  obtain ⟨hidle, hborn⟩ := hborn
  intro e
  rcases answer with fault | found
  · obtain ⟨rfl, -⟩ := hans.database_error
    obtain ⟨⟨hinv, hmove⟩, hsame⟩ := hi.still e rfl rfl (fun _ h => nomatch h) rfl fun _ => rfl
    exact ⟨hinv, hmove, Idle i, hsame.trans hidle, hfault fault⟩
  · obtain ⟨hanswer, hdatabase, hcontent⟩ := hans.database_ok
    have hrows := Database.removeProblem_ok hanswer
    rw [← hdatabase] at hrows
    have htexts : texts (s.after e stores) = texts s := congrArg LawfulContentStore.texts hcontent
    cases found with
    | true =>
      have howes : debt (s.log ++ [e]) i = some (Problem.keyOf contestId id) :=
        debt_append_self s.log e
      obtain ⟨hinv, hmove⟩ := hi.removed e hrows htexts rfl rfl hidle howes
      refine ⟨hinv, hmove, _, ⟨howes, born_append.mpr (Or.inl hborn), fun h => ?_⟩, hsome⟩
      exact ((Database.hasProblemOf_filter hrows).mp h).2 ⟨rfl, rfl⟩
    | false =>
      obtain ⟨⟨hinv, hmove⟩, hsame⟩ := hi.still e (congrArg _ hrows) htexts (fun _ h => nomatch h)
        rfl fun _ => rfl
      exact ⟨hinv, hmove, Idle i, hsame.trans hidle, hnone⟩

/-- The document of a row that is gone is removed. -/
theorem walks_discard {contestId id : Uuid}
    {next : Except ContentFault Unit → StoreProgram (Except Fault Json)}
    (hfault : ∀ fault, Walks κ r i operation (fun _ => ¬ OnlyInsertsFail r) (next (.error fault)))
    (hok : Walks κ r i operation (Idle i) (next (.ok ()))) :
    Walks κ r i operation
      (fun s => debt s.log i = some (Problem.keyOf contestId id) ∧ Gone contestId id s)
      (.ask (.content (.delete (Problem.keyOf contestId id))) next) := by
  refine ⟨(stable_debt i _).and _ (stable_gone i contestId id),
    fun s answer stores hi hgone hans => ?_⟩
  obtain ⟨hdebt, hborn, hgone⟩ := hgone
  intro e
  cases answer with
  | error fault =>
    -- The document stays, and nobody looks after it any more.
    obtain ⟨⟨hinv, hmove⟩, -⟩ := hi.content_error i operation hans
    refine ⟨hinv, hmove, _, ?_, hfault fault⟩
    exact not_onlyInsertsFail hans.content_error.2.2 fun _ h => nomatch h
  | ok _ =>
    obtain ⟨hanswer, hdatabase, htexts⟩ := hans.content_ok
    rw [Content.Map.answer_delete_ok hanswer] at htexts
    obtain ⟨hinv, hmove⟩ := hi.document e hdatabase htexts rfl rfl (Or.inr hborn)
      (fun h => absurd h hgone) (fun _ h => nomatch h)
      (fun key h => Option.some.inj (h.symm.trans hdebt))
    exact ⟨hinv, hmove, Idle i, debt_append_self s.log e, hok⟩

/-! ## The operations -/

theorem walks_create (contestId : Uuid) (new : NewProblem) :
    Walks κ r i (.createProblem contestId new) (Idle i)
      (Operation.createProblem contestId new).run.run := by
  rw [Problem.calls_create]
  refine walks_keep (fun _ => rfl) (fun _ _ => rfl) (fun _ => rfl) ?_
  rintro (fault | (_ | _))
  · exact walks_done _
  · exact walks_done _
  refine walks_fresh fun id => walks_prepare (fun fault => walks_done _) (walks_insert ?_)
  rintro (fault | _)
  · exact walks_done _
  · exact walks_done _

/-- The outline of the end of a change, whether or not a document was written before. -/
theorem walks_replaceCalls {contestId id : Uuid} {problem : Problem}
    (hplace : problem.place = (contestId, id, Problem.keyOf contestId id)) (wrote : Bool) :
    Walks κ r i operation
      (fun s => debt s.log i = (if wrote then some (Problem.keyOf contestId id) else none) ∧
        Born s.log id)
      (Problem.replaceCalls id problem wrote) := by
  rw [Problem.place, Prod.mk.injEq, Prod.mk.injEq] at hplace
  obtain ⟨rfl, rfl, hkey⟩ := hplace
  unfold Problem.replaceCalls
  rw [hkey]
  refine walks_replace ?_ (fun fault => walks_lost _) (walks_done _) ?_
  · intro key hkey'
    cases wrote with
    | false => cases hkey'
    | true => exact (Option.some.inj hkey').symm
  · -- The row is gone. A document that was written has to be removed; otherwise there is none.
    cases wrote with
    | false =>
      refine (walks_done _).weaken ?_ fun _ => And.left
      exact (stable_debt i none).and _ (stable_gone i problem.contestId problem.id)
    | true => exact walks_discard (fun fault => walks_lost _) (walks_done _)

theorem walks_update (contestId id : Uuid) (change : ProblemChange) :
    Walks κ r i (.updateProblem contestId id change) (Idle i)
      (Operation.updateProblem contestId id change).run.run := by
  rw [Problem.calls_update]
  refine walks_find (fun fault => walks_done _) (walks_done _) fun problem hplace => ?_
  have hkey : problem.contentKey = Problem.keyOf contestId id := congrArg (·.2.2) hplace
  obtain ⟨name, description, score, kind, answer⟩ := change
  cases description with
  -- Without a new description no document is written.
  | none => exact walks_replaceCalls (by rwa [Problem.place_apply]) false
  | some description =>
    dsimp only
    rw [hkey]
    refine walks_overwrite (fun fault => walks_done _) ?_
    exact walks_replaceCalls (by rwa [Problem.place_apply]) true

theorem walks_delete (contestId id : Uuid) :
    Walks κ r i (.deleteProblem contestId id) (Idle i)
      (Operation.deleteProblem contestId id).run.run := by
  rw [Problem.calls_delete]
  refine walks_find (fun fault => walks_done _) (walks_done _) fun problem hplace => ?_
  have hkey : problem.contentKey = Problem.keyOf contestId id := congrArg (·.2.2) hplace
  refine walks_remove (fun fault => walks_done _) (walks_done _) ?_
  -- The key of the row that was found is that of its problem.
  dsimp only
  rw [hkey]
  exact walks_discard (fun fault => walks_lost _) (walks_done _)

theorem walks_deleteContest (id : Uuid) :
    Walks κ r i (.deleteContest id) (Idle i) (Operation.deleteContest id).run.run := by
  rw [Contest.calls_delete]
  refine walks_keep (Database.problems_removeContest · id) (fun _ _ => rfl) (fun _ => rfl) ?_
  rintro (fault | (_ | _))
  · exact walks_done _
  · exact walks_done _
  · exact walks_done _

/-- The operations that write problems or delete contests. -/
def Writes : Operation → Prop
  | .createProblem .. | .updateProblem .. | .deleteProblem .. | .deleteContest _ => True
  | _ => False

/-- Every operation that writes problems keeps to the protocol, from its first call on. -/
theorem walks_writes (h : Writes operation) :
    Walks κ r i operation (Protocol.NotBegun i) operation.run.run := by
  have hwalks : Walks κ r i operation (Idle i) operation.run.run := by
    cases operation with
    | createProblem contestId new => exact walks_create contestId new
    | updateProblem contestId id change => exact walks_update contestId id change
    | deleteProblem contestId id => exact walks_delete contestId id
    | deleteContest id => exact walks_deleteContest id
    | _ => exact h.elim
  exact hwalks.weaken (Protocol.stable_notBegun _ i) fun s hnot => debt_eq_none hnot

end ContestPlatform.Statements
