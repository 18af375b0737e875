import ContestPlatform.Proofs.Courses
import ContestPlatform.Proofs.ProblemCalls
import ContestPlatform.Proofs.ProblemOrigins
import ContestPlatform.Proofs.StatementConsistency
import ContestPlatform.Proofs.SubmissionRecords
import Mathlib.Logic.Relation

/-!
# Statements are read back

The text that a problem was created with, or that a change gave it, is the text that is shown, to the
letter and whatever was kept under its key before. It stays the text that is shown until the next
change of the problem that brings a text, or its deletion: no other operation writes under the key
of the statement, wherever it fails or is cut off.
-/

namespace ContestPlatform

open Problem (document)

variable {κ : Type} [LawfulContentStore κ] {mayFail : Prop} {contestId id : Uuid}
  {description : String}

/-- Only calls on keys succeed. -/
theorem Content.Map.isKey_of_answer_ok {m : Map} {call : Call} {result : call.Result}
    (h : (m.answer call).1 = .ok result) : isKey call.key = true := by
  unfold answer at h
  split_ifs at h with hkey
  · exact hkey

/-! ## What is shown -/

/-- The problem is shown with a text as its statement. -/
def Problem.ShowsStatement (s : Stores κ) (contestId id : Uuid) (description : String) : Prop :=
  ∃ statement, (s.perform (get contestId id)).1 = .ok statement ∧
    statement.contestId = contestId ∧ statement.problemId = id ∧
    statement.description = description

/-- The row of the problem points at a key under which the text is kept. -/
structure Problem.Points (s : Stores κ) (contestId id : Uuid) (key description : String) :
    Prop where
  row : ∃ p, s.database.problem? contestId id = some p ∧ p.contentKey = key
  isKey : Content.isKey key = true
  text : s.texts key = some (document description)

theorem Problem.Points.shows {s : Stores κ} {key : String}
    (h : Points s contestId id key description) : ShowsStatement s contestId id description := by
  obtain ⟨p, hp, rfl⟩ := h.row
  obtain ⟨-, hcontest, hid⟩ := Database.mem_of_problem? hp
  exact ⟨_, perform_get hp h.isKey h.text (ProblemDocument.ofText?_print _), hcontest, hid, rfl⟩

/-! ## Creating and changing -/

theorem Database.Effect.hasProblem_of_inserted {db db' : Database} {p : Problem}
    (h : Effect db (.insertProblem p) (.ok ()) db') : db.hasProblem p.id = false := by
  cases h with
  | read hreads => exact nomatch hreads
  | problemAdded hnew _ => exact hnew

namespace Problem

variable {s t : Stores κ}

/-- A new row is found under its contest and its identifier. -/
theorem problem?_insertProblem {db : Database} {p : Problem}
    (h : (db.answer (.insertProblem p)).1 = .ok ()) :
    (db.answer (.insertProblem p)).2.problem? p.contestId p.id = some p := by
  have hproblems := Database.insertProblem_ok h
  have hnew : db.hasProblem p.id = false := by
    have heffect := Database.effect_answer db (.insertProblem p)
    rw [h] at heffect
    exact heffect.hasProblem_of_inserted
  -- No other row has the identifier.
  have hbefore : db.problem? p.contestId p.id = none := by
    refine List.find?_eq_none.mpr fun q hq hplace => ?_
    have hid := (Database.isProblemOf_eq_true.mp hplace).2
    have hthere : db.hasProblem p.id = true := List.any_eq_true.mpr ⟨q, hq, beq_iff_eq.mpr hid⟩
    exact nomatch hnew.symm.trans hthere
  have hplace : Database.isProblemOf p.contestId p.id p = true :=
    Database.isProblemOf_eq_true.mpr ⟨rfl, rfl⟩
  unfold Database.problem? at hbefore ⊢
  rw [hproblems, List.find?_append, hbefore, Option.none_or, List.find?_singleton, hplace]
  rfl

/-- A row that takes the place of another one keeps its key. -/
theorem problem?_replaceProblem {db : Database} {p q : Problem} {found : Bool}
    (h : (db.answer (.replaceProblem p)).1 = .ok found)
    (hfind : db.problem? p.contestId p.id = some q) :
    (db.answer (.replaceProblem p)).2.problem? p.contestId p.id =
      some { p with contentKey := q.contentKey } := by
  simp only [Database.answer, Database.replaceProblem] at h ⊢
  split_ifs at h ⊢ with hname
  · simp [Database.changedWith] at h
  · have htest : (Database.isProblemOf p.contestId p.id ∘ fun r =>
        if Database.isProblemOf p.contestId p.id r then { p with contentKey := r.contentKey }
        else r) = Database.isProblemOf p.contestId p.id :=
      funext (Database.isProblemOf_replaced p)
    have hq : Database.isProblemOf p.contestId p.id q = true := List.find?_some hfind
    unfold Database.problem? at hfind ⊢
    simp only [Database.changedWith, List.find?_map, htest, hfind, Option.map_some, hq, if_true]

/-- A problem was given a text: its row points at the text, and if every row pointed at its own
    statement before, then it still does. -/
structure Given (s t : Stores κ) (contestId id : Uuid) (description : String) : Prop where
  points : ∃ key, Points t contestId id key description
  keyed : s.database.Keyed → t.database.Keyed

/-- A problem that was created was given the text that it was created with. -/
theorem given_of_create {new : NewProblem} {problem : Problem}
    (h : Course mayFail (create contestId new).run s (.done (.ok problem)) t) :
    Given s t contestId problem.id new.description := by
  unfold create at h
  obtain ⟨known, m, hknown, hcreate⟩ := h.of_andThen
  cases known with
  | false => exact hcreate.not_throw.elim
  | true =>
    obtain ⟨drawn, m₁, hdrawn, hwrite⟩ := hcreate.of_andThen
    obtain ⟨_, m₂, hput, hrest⟩ := hwrite.of_andThen
    obtain ⟨_, m₃, hinsert, hend⟩ := hrest.of_andThen
    obtain ⟨rfl, rfl⟩ := hend.of_pure
    obtain ⟨hput, hkept, htexts⟩ := hput.of_content
    obtain ⟨hok, hdatabase, hcontent⟩ := hinsert.of_database
    constructor
    case points =>
      refine ⟨keyOf contestId drawn, ?_, isKey_keyOf _ _, ?_⟩
      · have hrow := problem?_insertProblem hok
        rw [hdatabase]
        exact ⟨_, hrow, rfl⟩
      · have hsame : t.texts = m₂.texts := congrArg LawfulContentStore.texts hcontent
        rw [hsame, htexts, Content.Map.answer_put_ok hput]
        exact Function.update_self _ _ _
    case keyed =>
      have hsame : m₂.database = s.database :=
        hkept.trans (hdrawn.of_freshId.database.trans hknown.of_database.2.1)
      intro hkeyed p hp
      rw [hdatabase, Database.insertProblem_ok hok, hsame] at hp
      rcases List.mem_append.mp hp with hold | hnew
      · exact hkeyed p hold
      · obtain rfl := List.mem_singleton.mp hnew
        rfl

/-- A problem that was changed with a text was given it, under the key that the row had before. -/
theorem given_of_update {change : ProblemChange} {problem : Problem}
    (hdescription : change.description = some description)
    (h : Course mayFail (update contestId id change).run s (.done (.ok problem)) t) :
    Given s t contestId id description := by
  unfold update at h
  obtain ⟨q, m, hfind, hchange⟩ := h.of_andThen
  obtain ⟨found?, m₁, hread, hfound⟩ := hfind.of_andThen
  obtain ⟨rfl, rfl⟩ := hfound.of_found
  obtain ⟨hok, hdatabase, -⟩ := hread.of_database
  have hq : s.database.problem? contestId id = some q := Except.ok.inj hok
  obtain ⟨-, rfl, rfl⟩ := Database.mem_of_problem? hq
  simp only [hdescription] at hchange
  obtain ⟨_, m₂, hput, hrest⟩ := hchange.of_andThen
  obtain ⟨replaced, m₃, hreplace, hend⟩ := hrest.of_andThen
  obtain ⟨hput, hkept, htexts⟩ := hput.of_content
  obtain ⟨hok, hdatabase', hcontent⟩ := hreplace.of_database
  -- The row was found before the text was written, and the tables were not changed since then.
  have hsame : m₂.database = s.database := hkept.trans hdatabase
  cases replaced with
  | false =>
    obtain ⟨_, _, _, hthrow⟩ := hend.of_andThen
    exact hthrow.not_throw.elim
  | true =>
    obtain ⟨rfl, rfl⟩ := hend.of_pure
    constructor
    case points =>
      refine ⟨q.contentKey, ?_, Content.Map.isKey_of_answer_ok hput, ?_⟩
      · have hrow := problem?_replaceProblem hok (hsame.symm ▸ hq)
        rw [hdatabase']
        exact ⟨_, hrow, rfl⟩
      · have htexts' : t.texts = m₂.texts := congrArg LawfulContentStore.texts hcontent
        rw [htexts', htexts, Content.Map.answer_put_ok hput]
        exact Function.update_self _ _ _
    case keyed =>
      intro hkeyed
      rw [hdatabase', Database.keyed_congr (Database.replaceProblem_ok hok).2, hsame]
      exact hkeyed

end Problem

/-! ## Operations that come later -/

/-- The key of a statement is that of one problem: no row of another problem has it. -/
def Database.OwnKey (db : Database) (contestId id : Uuid) (key : String) : Prop :=
  ∀ q ∈ db.problems, q.contentKey = key ↔ q.contestId = contestId ∧ q.id = id

/-- In tables that the platform has written itself every statement has a key of its own. -/
theorem Database.Keyed.ownKey {db : Database} (h : db.Keyed) (contestId id : Uuid) :
    db.OwnKey contestId id (Problem.keyOf contestId id) := by
  intro q hq
  rw [h q hq]
  exact Problem.keyOf_inj

/-- The problem has a row, and under its key, which is that of no other problem, there is the
    text. -/
structure Problem.Holds (contestId id : Uuid) (key description : String) (s : Stores κ) : Prop where
  row : s.database.HasProblemOf contestId id
  own : s.database.OwnKey contestId id key
  isKey : Content.isKey key = true
  text : s.texts key = some (document description)

/-- The calls that spare the row of a problem and the text under its key. -/
def Call.SparesStatement (contestId id : Uuid) (key : String) : Call → Prop
  | .database (.insertProblem p) => p.contentKey ≠ key
  | .database (.removeProblem c i) => ¬ (c = contestId ∧ i = id)
  | .content (.put k _ mode) => mode = .createOnly ∨ k ≠ key
  | .content (.delete k) => k ≠ key
  | _ => True

theorem Call.sparesStatement_of_reads {call : Call} {key : String} (h : call.reads = true) :
    call.SparesStatement contestId id key := by
  unfold SparesStatement
  split
  case h_1 | h_2 | h_3 | h_4 => exact nomatch h
  case h_5 => trivial

namespace Problem

variable {s s' : Stores κ} {key : String}

theorem Points.holds (h : Points s contestId id key description)
    (hown : s.database.OwnKey contestId id key) : Holds contestId id key description s := by
  obtain ⟨p, hp, rfl⟩ := h.row
  exact ⟨⟨p, Database.mem_of_problem? hp⟩, hown, h.isKey, h.text⟩

namespace Holds

theorem shows (h : Holds contestId id key description s) :
    ShowsStatement s contestId id description := by
  obtain ⟨p, hp⟩ := Database.exists_problem? h.row
  obtain ⟨hmem, hplace⟩ := Database.mem_of_problem? hp
  exact Points.shows ⟨⟨p, hp, (h.own p hmem).mpr hplace⟩, h.isKey, h.text⟩

theorem kept (h : Holds contestId id key description s) (hkept : Kept s s') :
    Holds contestId id key description s' where
  row := hkept.database ▸ h.row
  own := hkept.database ▸ h.own
  isKey := h.isKey
  text := hkept.texts ▸ h.text

/-- A call of the database leaves the row where it is, and gives its key to no other row. -/
theorem effect (h : Holds contestId id key description s) {call : Database.Call}
    {answer : call.Answer} (hspares : (Call.database call).SparesStatement contestId id key)
    (heffect : s.database.Effect call answer s'.database) (htexts : s'.texts = s.texts) :
    Holds contestId id key description s' := by
  constructor
  case row =>
    rcases heffect.hasProblemOf_or_removed h.row with hrow | hremoved
    · exact hrow
    · cases hremoved
      exact absurd ⟨rfl, rfl⟩ hspares
  case own =>
    intro q hq
    rcases heffect.place_of_mem hq with ⟨p, hp, hplace⟩ | hinsert
    · simp only [place, Prod.mk.injEq] at hplace
      obtain ⟨hcontest, hid, hkey⟩ := hplace
      rw [← hcontest, ← hid, ← hkey]
      exact h.own p hp
    · -- A row that is inserted has another key, and its identifier is new.
      cases hinsert
      refine iff_of_false hspares fun hplace => ?_
      obtain ⟨p, hp, -, hid⟩ := h.row
      have hthere : s.database.hasProblem q.id = true :=
        List.any_eq_true.mpr ⟨p, hp, beq_iff_eq.mpr (hid.trans hplace.2.symm)⟩
      exact Bool.false_ne_true (heffect.hasProblem_of_inserted.symm.trans hthere)
  case isKey => exact h.isKey
  case text => exact htexts ▸ h.text

/-- A call that spares the statement keeps it, whatever the reply is. -/
theorem reply (h : Holds contestId id key description s) {call : Call} {answer : call.Answer}
    (hspares : call.SparesStatement contestId id key) (hreply : Reply mayFail s call answer s') :
    Holds contestId id key description s' := by
  cases call with
  | now | freshId => exact h.kept (hreply.kept rfl)
  | database call =>
    obtain ⟨heffect, hcontent⟩ := hreply.effect
    exact h.effect hspares heffect (congrArg LawfulContentStore.texts hcontent)
  | content call =>
    cases answer with
    | error fault =>
      obtain ⟨hdatabase, htexts⟩ := hreply.content_error
      exact h.kept ⟨hdatabase, htexts⟩
    | ok result =>
      obtain ⟨hok, hdatabase, htexts⟩ := hreply.content_ok
      have hother : call.key ≠ key → Holds contestId id key description s' := by
        intro hne
        refine ⟨hdatabase ▸ h.row, hdatabase ▸ h.own, h.isKey, ?_⟩
        rw [htexts, Content.Map.answer_other _ hne]
        exact h.text
      cases call with
      | get k => exact h.kept (hreply.kept rfl)
      | delete k => exact hother hspares
      | put k body mode =>
        rcases hspares with rfl | hne
        · -- A put that only creates would have been refused under the key of the statement.
          refine hother fun hkey => ?_
          have hfree := Content.Map.eq_none_of_answer_create_ok hok
          rw [show k = key from hkey, h.text] at hfree
          exact nomatch hfree
        · exact hother hne

/-- A program goes on from a call that spares the statement. -/
theorem ask {α : Type} (h : Holds contestId id key description s) {call : Call}
    {next : call.Answer → StoreProgram α} (hspares : call.SparesStatement contestId id key)
    (hnext : ∀ answer s', Reply mayFail s call answer s' → Holds contestId id key description s' →
      Along mayFail (Holds contestId id key description) (next answer) s') :
    Along mayFail (Holds contestId id key description) (.ask call next) s :=
  .ask h fun answer s' hreply => hnext answer s' hreply (h.reply hspares hreply)

end Holds

/-! ### Operation by operation -/

section Operations

variable {contestId' id' : Uuid}

/-- A new problem cannot have the key of the statement, since something is kept under it. -/
private theorem holds_createProblem {new : NewProblem}
    (hs : Holds contestId id key description s) :
    Along mayFail (Holds contestId id key description)
      (Operation.createProblem contestId' new).run.run s := by
  rw [calls_create]
  refine hs.ask trivial ?_
  rintro (fault | (_ | _)) s₁ _ hs₁
  · exact .done hs₁
  · exact .done hs₁
  refine hs₁.ask trivial fun drawn s₂ _ hs₂ => hs₂.ask (.inl rfl) ?_
  rintro (fault | _) s₃ hput hs₃
  · exact .done hs₃
  have hother : keyOf contestId' drawn ≠ key := by
    intro hkey
    have hfree := Content.Map.eq_none_of_answer_create_ok hput.content_ok.1
    rw [hkey, hs₂.text] at hfree
    exact nomatch hfree
  refine hs₃.ask hother ?_
  rintro (fault | _) s₄ _ hs₄ <;> exact .done hs₄

/-- A row is replaced under the key that it had, and a text that was written for nothing is removed
    under the key under which it was written. -/
private theorem holds_replaceCalls {i : Uuid} {p : Problem} {wrote : Bool}
    (hother : wrote = true → p.contentKey ≠ key) (hs : Holds contestId id key description s) :
    Along mayFail (Holds contestId id key description) (replaceCalls i p wrote) s := by
  refine hs.ask trivial ?_
  rintro (fault | (_ | _)) s₁ _ hs₁
  · exact .done hs₁
  · cases wrote with
    | false => exact .done hs₁
    | true => exact hs₁.ask (hother rfl) fun _ s₂ _ hs₂ => .done hs₂
  · exact .done hs₁

/-- A change of another problem writes under another key, and a change without a text writes no
    text. -/
private theorem holds_updateProblem {change : ProblemChange}
    (hother : contestId' = contestId → id' = id → change.description = none)
    (hs : Holds contestId id key description s) :
    Along mayFail (Holds contestId id key description)
      (Operation.updateProblem contestId' id' change).run.run s := by
  rw [calls_update]
  refine hs.ask trivial ?_
  rintro (fault | (_ | q)) s₁ hfind hs₁
  · exact .done hs₁
  · exact .done hs₁
  obtain ⟨hq, rfl, rfl⟩ := Database.mem_of_problem? (Except.ok.inj hfind.database_ok.1)
  dsimp only
  cases hdescription : change.description with
  | none => exact holds_replaceCalls nofun hs₁
  | some text =>
    have hkey : q.contentKey ≠ key := by
      intro hsame
      obtain ⟨hcontest, hid⟩ := (hs.own q hq).mp hsame
      exact nomatch hdescription.symm.trans (hother hcontest hid)
    refine hs₁.ask (.inr hkey) ?_
    rintro (fault | _) s₂ _ hs₂
    · exact .done hs₂
    · exact holds_replaceCalls (fun _ => hkey) hs₂

/-- With another problem another text goes. -/
private theorem holds_deleteProblem (hother : ¬ (contestId' = contestId ∧ id' = id))
    (hs : Holds contestId id key description s) :
    Along mayFail (Holds contestId id key description)
      (Operation.deleteProblem contestId' id').run.run s := by
  rw [calls_delete]
  refine hs.ask trivial ?_
  rintro (fault | (_ | q)) s₁ hfind hs₁
  · exact .done hs₁
  · exact .done hs₁
  obtain ⟨hq, rfl, rfl⟩ := Database.mem_of_problem? (Except.ok.inj hfind.database_ok.1)
  refine hs₁.ask hother ?_
  rintro (fault | (_ | _)) s₂ _ hs₂
  · exact .done hs₂
  · exact .done hs₂
  have hkey : q.contentKey ≠ key := fun hsame => hother ((hs.own q hq).mp hsame)
  exact hs₂.ask hkey fun _ s₃ _ hs₃ => .done hs₃

end Operations

end Problem

/-- The operation neither changes the text of the problem nor deletes the problem. -/
def Operation.LeavesStatement (contestId id : Uuid) : Operation → Prop
  | .updateProblem c i change => c = contestId → i = id → change.description = none
  | .deleteProblem c i => ¬ (c = contestId ∧ i = id)
  | _ => True

/-- The statement of a problem stays, wherever an operation that leaves its statement is cut off. -/
theorem Operation.holds {key : String} (operation : Operation)
    (h : operation.LeavesStatement contestId id) :
    Preserves mayFail (Problem.Holds (κ := κ) contestId id key description) operation.run.run := by
  cases operation with
  | createProblem c new => exact fun s hs => Problem.holds_createProblem hs
  | updateProblem c i change => exact fun s hs => Problem.holds_updateProblem h hs
  | deleteProblem c i => exact fun s hs => Problem.holds_deleteProblem h hs
  | _ =>
    -- All others make no call that writes problems, and put nothing where something is kept.
    refine .of_asks (within_run _) fun s call answer s' hask hreply hs => hs.reply ?_ hreply
    rcases hask with hreads | hwrites
    · exact Call.sparesStatement_of_reads hreads
    · unfold Call.SparesStatement
      split
      case h_1 | h_2 | h_4 => exact hwrites.elim
      case h_3 mode =>
        cases mode with
        | createOnly => exact .inl rfl
        | overwrite => exact hwrites.elim
      case h_5 => trivial

/-! ## Reading back -/

namespace Problem

/-- An operation has succeeded that gives a problem a text: the problem was created with it, or
    changed to it. Calls may have failed on the way, if calls may. -/
inductive GivesText (mayFail : Prop) (s t : Stores κ) (contestId : Uuid) :
    (id : Uuid) → (description : String) → Prop where
  | created {new : NewProblem} {problem : Problem}
      (h : Course mayFail (create contestId new).run s (.done (.ok problem)) t) :
      GivesText mayFail s t contestId problem.id new.description
  | changed {id : Uuid} {change : ProblemChange} {description : String} {problem : Problem}
      (hdescription : change.description = some description)
      (h : Course mayFail (update contestId id change).run s (.done (.ok problem)) t) :
      GivesText mayFail s t contestId id description

/-- Operations that leave the statement of a problem were performed one after another, each of them
    to its end or up to where it was cut off. -/
def Undisturbed (mayFail : Prop) (contestId id : Uuid) : Stores κ → Stores κ → Prop :=
  Relation.ReflTransGen fun s t => ∃ (operation : Operation) (q : StoreProgram (Except Fault Json)),
    operation.LeavesStatement contestId id ∧ Course mayFail operation.run.run s q t

variable {s t : Stores κ}

theorem GivesText.given (h : GivesText mayFail s t contestId id description) :
    Given s t contestId id description := by
  cases h with
  | created h => exact given_of_create h
  | changed hdescription h => exact given_of_update hdescription h

theorem Holds.undisturbed {key : String} (h : Holds contestId id key description t) {u : Stores κ}
    (hlater : Undisturbed mayFail contestId id t u) : Holds contestId id key description u := by
  induction hlater with
  | refl => exact h
  | tail _ hstep ih =>
    obtain ⟨operation, q, hleaves, hcourse⟩ := hstep
    exact operation.holds hleaves _ ih _ _ hcourse

/-- A text that was given to a problem is shown at once, whatever was kept for the problem before.
    It stays so whatever other operations come later, if no other row points at the text; and in
    tables that the platform has written itself no other row does. -/
theorem statement_read_back (h : GivesText mayFail s t contestId id description) :
    ShowsStatement t contestId id description ∧
      ((s.database.Keyed ∨ ∃ p, t.database.problem? contestId id = some p ∧
          t.database.OwnKey contestId id p.contentKey) →
        ∀ u, Undisturbed mayFail contestId id t u → ShowsStatement u contestId id description) := by
  obtain ⟨⟨key, hpoints⟩, hkeyed⟩ := h.given
  refine ⟨hpoints.shows, fun hown u hlater => ?_⟩
  obtain ⟨p, hp, rfl⟩ := hpoints.row
  have hownKey : t.database.OwnKey contestId id p.contentKey := by
    rcases hown with hkeyed' | ⟨q, hq, hown⟩
    · obtain ⟨hmem, rfl, rfl⟩ := Database.mem_of_problem? hp
      rw [hkeyed hkeyed' p hmem]
      exact (hkeyed hkeyed').ownKey _ _
    · obtain rfl := Option.some.inj (hp.symm.trans hq)
      exact hown
  exact ((hpoints.holds hownKey).undisturbed hlater).shows

/-! ### A text with odd characters -/

/-- Stores in which what is kept for the problem is no statement. -/
def brokenStores : Stores Content.Memory :=
  { Submission.codeStores with
    content := Content.Memory.empty.insert Submission.codeProblem.contentKey "broken" }

/-- A quote, a backslash, a line break, a NUL, a delete, and a character beyond the first plane. -/
def oddText : String := "\"\\\n\x00\x7f𝕊"

/-- The text is given to the problem, and then the contest cannot be deleted. -/
theorem odd_text_read_back :
    (brokenStores.perform (get (.ofNat 1) (.ofNat 2))).1.toOption = none ∧
    ∃ t, GivesText False brokenStores t (.ofNat 1) (.ofNat 2) oddText ∧
      ShowsStatement t (.ofNat 1) (.ofNat 2) oddText ∧
      ShowsStatement (t.run (Operation.deleteContest (.ofNat 1)).run.run).2 (.ofNat 1) (.ofNat 2)
        oddText := by
  let change : ProblemChange := ⟨none, some oddText, none, none, none⟩
  let update := (Problem.update (.ofNat 1) (.ofNat 2) change).run
  have hcourse : Course False update brokenStores _ _ := Course.of_run update brokenStores
  have hok : (brokenStores.run update).1 = .ok Submission.codeProblem := by
    have hsome : (brokenStores.run update).1.toOption = some Submission.codeProblem := by
      decide +kernel
    generalize (brokenStores.run update).1 = result at hsome
    cases result with
    | error fault => exact nomatch hsome
    | ok problem =>
      cases hsome
      rfl
  rw [hok] at hcourse
  have hgives : GivesText False brokenStores (brokenStores.run update).2 (.ofNat 1) (.ofNat 2)
      oddText := .changed rfl hcourse
  have hkeyed : brokenStores.database.Keyed := by
    intro p hp
    obtain rfl := List.mem_singleton.mp hp
    rfl
  obtain ⟨hshown, hlater⟩ := statement_read_back hgives
  refine ⟨by decide +kernel, _, hgives, hshown, hlater (.inl hkeyed) _ (.single ?_)⟩
  exact ⟨.deleteContest (.ofNat 1), _, trivial, .of_run _ _⟩

end Problem

end ContestPlatform
