import ContestPlatform.Proofs.RelationalConsistency
import ContestPlatform.Proofs.StatementOutlines

/-!
# Stores that lack nothing

The tables speak of texts that the content store keeps, and of states by their names. Stores are
intact if the references of the tables hold, every problem has its statement, every submission of
code has its code, and every state is the name of one. Then no read fails. What single calls do to
intact stores is dealt with here: most of them can only take rows away, and the others write a
record whose text is there already, or is owed.
-/

namespace ContestPlatform

open Interleaving (Exchange)

/-! ## Calls that write no record -/

namespace Database

/-- The calls that write a problem or a submission. -/
def Call.writesRecord : Call → Bool
  | .insertProblem _ | .replaceProblem _ | .insertSubmission _ => true
  | _ => false

/-- Every other call leaves no problem and no submission that was not there before. -/
theorem Effect.records_subset {db db' : Database} {call : Call} {answer : call.Answer}
    (h : Effect db call answer db') (hrecord : call.writesRecord = false) :
    db'.problems ⊆ db.problems ∧ db'.submissions ⊆ db.submissions := by
  cases h with
  | problemAdded | problemReplaced | submissionAdded => exact nomatch hrecord
  | contestRemoved => exact ⟨fun _ hp => hp, List.filter_subset_self _⟩
  | problemRemoved => exact ⟨List.filter_subset_self _, List.filter_subset_self _⟩
  | _ => exact ⟨fun _ hp => hp, fun _ hs => hs⟩

/-- Only a name that can be kept is written. -/
theorem isStorable_of_insertProblem_ok {db : Database} {p : Problem}
    (h : (db.answer (.insertProblem p)).1 = .ok ()) : isStorable p.name = true := by
  cases hname : isStorable p.name with
  | true => rfl
  | false => simp [answer, insertProblem, isStorableProblem, hname, changed] at h

theorem isStorable_of_replaceProblem_ok {db : Database} {p : Problem} {found : Bool}
    (h : (db.answer (.replaceProblem p)).1 = .ok found) : isStorable p.name = true := by
  cases hname : isStorable p.name with
  | true => rfl
  | false => simp [answer, replaceProblem, hname, changedWith] at h

/-- The key of a statement can be kept. -/
theorem isStorable_keyOf (contestId id : Uuid) : isStorable (Problem.keyOf contestId id) = true := by
  have hnul : ∀ u : Uuid, '\x00' ∉ u.render := fun u => u.notMem_render (by decide)
  simp only [isStorable, Problem.toList_keyOf, List.contains_eq_mem, Bool.not_eq_true',
    decide_eq_false_iff_not, List.mem_append, List.mem_cons, hnul, false_or]
  decide

end Database

namespace Stores

variable {κ : Type} [LawfulContentStore κ]

/-- Stores that lack nothing. The code of a submission that was handed in just now may be owed. -/
structure Intact (owed : Option Uuid) (s : Stores κ) : Prop where
  consistent : s.database.Consistent
  /-- The name of a problem can be written again. -/
  named : ∀ p ∈ s.database.problems, Database.isStorable p.name = true
  stated : ∀ p ∈ s.database.problems,
    ∃ text, s.texts p.contentKey = some text ∧ Statements.IsDocument text
  coded : ∀ row ∈ s.database.submissions, row.kind = .code →
    owed = some row.id ∨ ∃ text, s.texts (Submission.codeKey row.id) = some text
  known : ∀ row ∈ s.database.submissions, ∃ state, SubmissionState.ofText? row.status = some state

/-- An identifier under which nothing is kept. -/
structure Unused (s : Stores κ) (id : Uuid) : Prop where
  contest : s.database.hasContest id = false
  problem : s.database.hasProblem id = false
  submission : s.database.hasSubmission id = false
  statement : ∀ contestId, s.texts (Problem.keyOf contestId id) = none
  code : s.texts (Submission.codeKey id) = none

theorem Unused.kept {s s' : Stores κ} {id : Uuid} (h : s.Unused id) (hkept : Kept s s') :
    s'.Unused id where
  contest := hkept.database ▸ h.contest
  problem := hkept.database ▸ h.problem
  submission := hkept.database ▸ h.submission
  statement contestId := hkept.texts ▸ h.statement contestId
  code := hkept.texts ▸ h.code

namespace Intact

variable {s : Stores κ} {owed : Option Uuid} {db : Database} {content : κ}

theorem of_empty (hempty : s.database = .empty) : s.Intact none := by
  constructor
  case consistent =>
    rw [hempty]
    exact Database.consistent_empty
  all_goals
    rw [hempty]
    exact fun _ h => absurd h List.not_mem_nil

/-! ## Reading -/

/-- What is read of a row is a submission. -/
theorem readSubmission (h : s.Intact owed) {row : Database.SubmissionRow}
    (hrow : row ∈ s.database.submissions) :
    ∃ sub, Database.readSubmission row = .ok sub ∧ sub.id = row.id ∧ sub.kind = row.kind := by
  obtain ⟨state, hstate⟩ := h.known row hrow
  simp only [Database.readSubmission, Database.SubmissionRow.submission?, hstate]
  exact ⟨_, rfl, rfl, rfl⟩

private theorem mapM_ok {α β : Type} {f : α → Except Fault β} {xs : List α}
    (h : ∀ x ∈ xs, ∃ y, f x = .ok y) : ∃ ys, xs.mapM f = .ok ys := by
  induction xs with
  | nil => exact ⟨[], rfl⟩
  | cons x rest ih =>
    obtain ⟨y, hy⟩ := h x List.mem_cons_self
    obtain ⟨ys, hys⟩ := ih fun x' hx' => h x' (List.mem_cons_of_mem x hx')
    exact ⟨y :: ys, by rw [List.mapM_cons, hy, hys]; rfl⟩

/-- No call that reads fails. -/
theorem reads (h : s.Intact owed) {call : Database.Call} (hreads : call.reads = true) :
    ∃ result, (s.database.answer call).1 = .ok result := by
  -- Only the states of submissions may be unknown.
  cases call with
  | findSubmission id =>
    simp only [Database.answer, Database.submission?]
    cases hrow : s.database.submissionRow? id with
    | none => exact ⟨_, rfl⟩
    | some row =>
      obtain ⟨sub, hread, -, -⟩ := h.readSubmission (List.mem_of_find?_eq_some hrow)
      simp only [hread]
      exact ⟨_, rfl⟩
  | submissionStatus id =>
    simp only [Database.answer, Database.status?]
    cases hrow : s.database.submissionRow? id with
    | none => exact ⟨_, rfl⟩
    | some row =>
      obtain ⟨state, hstate⟩ := h.known row (List.mem_of_find?_eq_some hrow)
      simp only [Database.SubmissionRow.status?, hstate]
      exact ⟨_, rfl⟩
  | submissionPage userId problemId limit offset =>
    refine mapM_ok fun row hrow => ?_
    have hsorted := List.mem_of_mem_drop (List.mem_of_mem_take hrow)
    have hmem := (List.mem_filter.mp (List.mem_mergeSort.mp hsorted)).1
    obtain ⟨sub, hread, -, -⟩ := h.readSubmission hmem
    exact ⟨sub, hread⟩
  | insertContest | replaceContest | removeContest | insertRegistration | removeRegistration
  | insertProblem | replaceProblem | removeProblem | insertSubmission | patchRanking =>
    cases hreads
  | _ => exact ⟨_, rfl⟩

/-! ## Changes of the tables -/

/-- Rows of problems and submissions may go, as long as the references hold. -/
theorem shrink (h : s.Intact owed) (hconsistent : db.Consistent)
    (hproblems : db.problems ⊆ s.database.problems)
    (hsubmissions : db.submissions ⊆ s.database.submissions) :
    Intact owed { s with database := db } where
  consistent := hconsistent
  named p hp := h.named p (hproblems hp)
  stated p hp := h.stated p (hproblems hp)
  coded row hrow := h.coded row (hsubmissions hrow)
  known row hrow := h.known row (hsubmissions hrow)

/-- A call that writes no record keeps the stores intact. -/
theorem effect (h : s.Intact owed) {call : Database.Call} {answer : call.Answer}
    (heffect : Database.Effect s.database call answer db) (hrecord : call.writesRecord = false) :
    Intact owed { s with database := db } := by
  obtain ⟨hproblems, hsubmissions⟩ := heffect.records_subset hrecord
  refine h.shrink (h.consistent.effect heffect ?_ ?_) hproblems hsubmissions
  · rintro p ⟨⟩
    exact nomatch hrecord
  · rintro sub ⟨⟩
    exact nomatch hrecord

/-- A call that fails changes nothing. -/
theorem refused (h : s.Intact owed) {call : Database.Call} {fault : Fault}
    (hanswer : s.database.answer call = (.error fault, db)) :
    Intact owed { s with database := db } := by
  have heffect := Database.effect_answer s.database call
  rw [hanswer] at heffect
  obtain rfl : db = s.database := heffect.of_error
  exact h

/-- A problem may be added whose statement is there. -/
theorem insertProblem (h : s.Intact owed) {p : Problem}
    (hanswer : s.database.answer (.insertProblem p) = (.ok (), db))
    (hkey : p.contentKey = Problem.keyOf p.contestId p.id)
    (hstated : ∃ text, s.texts p.contentKey = some text ∧ Statements.IsDocument text) :
    Intact owed { s with database := db } := by
  have hname := Database.isStorable_of_insertProblem_ok (congrArg Prod.fst hanswer)
  have heffect := Database.effect_answer s.database (.insertProblem p)
  rw [hanswer] at heffect
  have hconsistent := h.consistent.effect heffect (fun q hq => by cases hq; exact hkey) nofun
  cases heffect with
  | read hreads => exact nomatch hreads
  | problemAdded _ _ =>
    refine { h with consistent := hconsistent, named := fun q hq => ?_, stated := fun q hq => ?_ }
    · rcases List.mem_append.mp hq with hold | hlast
      · exact h.named q hold
      · rw [List.mem_singleton.mp hlast]
        exact hname
    · rcases List.mem_append.mp hq with hold | hlast
      · exact h.stated q hold
      · rw [List.mem_singleton.mp hlast]
        exact hstated

/-- A problem may be replaced: its statement stays where it is. -/
theorem replaceProblem (h : s.Intact owed) {p : Problem} {found : Bool}
    (hanswer : s.database.answer (.replaceProblem p) = (.ok found, db)) :
    Intact owed { s with database := db } := by
  have hname := Database.isStorable_of_replaceProblem_ok (congrArg Prod.fst hanswer)
  have heffect := Database.effect_answer s.database (.replaceProblem p)
  rw [hanswer] at heffect
  have hconsistent := h.consistent.effect heffect nofun nofun
  cases heffect with
  | read hreads => exact nomatch hreads
  | noProblemReplaced _ => exact h
  | problemReplaced _ =>
    refine { h with consistent := hconsistent, named := fun q hq => ?_, stated := fun q hq => ?_ }
    · obtain ⟨r, hr, rfl⟩ := List.mem_map.mp hq
      split
      case isTrue => exact hname
      case isFalse => exact h.named r hr
    · obtain ⟨r, hr, rfl⟩ := List.mem_map.mp hq
      split
      case isTrue => exact h.stated r hr
      case isFalse => exact h.stated r hr

/-- A submission may be added to a problem of its contest. If it is code, the code is owed. -/
theorem insertSubmission (h : s.Intact none) {sub : Submission}
    (hanswer : s.database.answer (.insertSubmission sub) = (.ok (), db))
    (hproblem : s.database.HasProblemOf sub.contestId sub.problemId)
    (hchoices : sub.kind = .code → sub.choices = [])
    (howed : sub.kind = .code → owed = some sub.id) :
    Intact owed { s with database := db } := by
  have huser := Database.hasUser_of_insertSubmission_ok (congrArg Prod.fst hanswer)
  have heffect := Database.effect_answer s.database (.insertSubmission sub)
  rw [hanswer] at heffect
  have hconsistent := h.consistent.effect heffect nofun
    (fun sub' hsub => by cases hsub; exact ⟨hproblem, huser, hchoices⟩)
  cases heffect with
  | read hreads => exact nomatch hreads
  | @submissionAdded _ row hrow _ =>
    obtain ⟨hid, -, hstatus⟩ := Database.SubmissionRow.of_ofSubmission? hrow
    obtain ⟨-, -, -, -, hkind, -⟩ := (Database.SubmissionRow.keeps_of_ofSubmission? hrow).fields
    refine { h with consistent := hconsistent, coded := fun r hr => ?_, known := fun r hr => ?_ }
    · rcases List.mem_append.mp hr with hold | hlast
      · intro hcode
        rcases h.coded r hold hcode with hnone | htext
        · exact nomatch hnone
        · exact Or.inr htext
      · rw [List.mem_singleton.mp hlast, hid, hkind]
        exact fun hcode => Or.inl (howed hcode)
    · rcases List.mem_append.mp hr with hold | hlast
      · exact h.known r hold
      · rw [List.mem_singleton.mp hlast, hstatus]
        exact ⟨_, SubmissionState.ofText?_name _⟩

/-- Rows that are added from outside are of no problem and no submission. -/
theorem added (h : s.Intact owed) (hadded : s.database.Added db) :
    Intact owed { s with database := db } := by
  refine h.shrink (h.consistent.added hadded) ?_ ?_
  · rw [hadded.problems_eq]
    exact fun _ hp => hp
  · cases hadded with
    | user | admin | ranking => exact fun _ hs => hs

/-- A grader that writes the name of a state keeps the stores intact. -/
theorem graded (h : s.Intact owed) (id : Uuid) {g : Database.Grade} {state : SubmissionState}
    (hstate : g.status = state.name) :
    Intact owed { s with database := s.database.grade id g s.database.results } := by
  refine { h with
    consistent := h.consistent.graded id g, coded := fun r hr => ?_, known := fun r hr => ?_ }
  · obtain ⟨row, hrow, rfl⟩ := List.mem_map.mp hr
    split
    case isTrue => exact h.coded row hrow
    case isFalse => exact h.coded row hrow
  · obtain ⟨row, hrow, rfl⟩ := List.mem_map.mp hr
    split
    case isTrue =>
      refine ⟨state, ?_⟩
      simp only [Database.SubmissionRow.graded, hstate, SubmissionState.ofText?_name]
    case isFalse => exact h.known row hrow

/-! ## Changes of the texts -/

/-- Texts may change, as long as the statements and the code are still there. -/
theorem retext (h : s.Intact owed) {texts : Content.Map}
    (htexts : LawfulContentStore.texts content = texts)
    (hstated : ∀ p ∈ s.database.problems,
      ∃ text, texts p.contentKey = some text ∧ Statements.IsDocument text)
    (hcoded : ∀ row ∈ s.database.submissions, row.kind = .code →
      owed = some row.id ∨ ∃ text, texts (Submission.codeKey row.id) = some text) :
    Intact owed { s with content := content } := by
  subst htexts
  exact { h with stated := hstated, coded := hcoded }

/-- Where the tables and the texts are the same, nothing is missing either. -/
theorem kept (h : s.Intact owed) {s' : Stores κ} (hkept : Kept s s') : s'.Intact owed := by
  obtain ⟨now, ids, database, content⟩ := s'
  obtain rfl : database = s.database := hkept.database
  have hsame := h.retext hkept.texts h.stated h.coded
  exact { hsame with }

/-- A statement may be written, whether there is a row or not. -/
theorem putStatement (h : s.Intact owed) {contestId id : Uuid} {text : String}
    (htexts : LawfulContentStore.texts content =
      Function.update s.texts (Problem.keyOf contestId id) (some text))
    (hdocument : Statements.IsDocument text) : Intact owed { s with content := content } := by
  refine h.retext htexts (fun p hp => ?_) fun row hrow hcode => ?_
  · by_cases hkey : p.contentKey = Problem.keyOf contestId id
    · exact ⟨text, by rw [hkey, Function.update_self], hdocument⟩
    · rw [Function.update_of_ne hkey]
      exact h.stated p hp
  · -- Code is kept under other keys.
    rw [Function.update_of_ne (Submission.codeKey_ne_keyOf row.id contestId id)]
    exact h.coded row hrow hcode

/-- A statement may be removed when there is no row of the problem. -/
theorem discardStatement (h : s.Intact owed) {contestId id : Uuid}
    (htexts : LawfulContentStore.texts content =
      Function.update s.texts (Problem.keyOf contestId id) none)
    (hgone : ¬ s.database.HasProblemOf contestId id) : Intact owed { s with content := content } := by
  refine h.retext htexts (fun p hp => ?_) fun row hrow hcode => ?_
  · have hkey : p.contentKey ≠ Problem.keyOf contestId id := by
      rw [h.consistent.keyed p hp, ne_eq, Problem.keyOf_inj]
      exact fun hplace => hgone ⟨p, hp, hplace⟩
    rw [Function.update_of_ne hkey]
    exact h.stated p hp
  · rw [Function.update_of_ne (Submission.codeKey_ne_keyOf row.id contestId id)]
    exact h.coded row hrow hcode

/-- Code may be written. -/
theorem putCode (h : s.Intact owed) {id : Uuid} {text : String}
    (htexts : LawfulContentStore.texts content =
      Function.update s.texts (Submission.codeKey id) (some text)) :
    Intact owed { s with content := content } := by
  refine h.retext htexts (fun p hp => ?_) fun row hrow hcode => ?_
  · have hkey : p.contentKey ≠ Submission.codeKey id := by
      rw [h.consistent.keyed p hp]
      exact (Submission.codeKey_ne_keyOf id _ _).symm
    rw [Function.update_of_ne hkey]
    exact h.stated p hp
  · refine (h.coded row hrow hcode).imp_right fun ⟨old, hold⟩ => ?_
    rw [Function.update_apply]
    split
    case isTrue => exact ⟨text, rfl⟩
    case isFalse => exact ⟨old, hold⟩

/-- Once there is a text under its key, no code is owed any more. -/
theorem paid {id : Uuid} (h : s.Intact (some id)) {text : String}
    (htext : s.texts (Submission.codeKey id) = some text) : s.Intact none := by
  refine { h with coded := fun row hrow hcode => ?_ }
  rcases h.coded row hrow hcode with howed | htext'
  · cases howed
    exact Or.inr ⟨text, htext⟩
  · exact Or.inr htext'

end Intact

end Stores

end ContestPlatform
