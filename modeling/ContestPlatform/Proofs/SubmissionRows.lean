import ContestPlatform.Proofs.ContentKeys
import ContestPlatform.Proofs.GradedRuns
import ContestPlatform.Proofs.IntListText
import ContestPlatform.Proofs.Performing
import ContestPlatform.Proofs.ProblemRows

/-!
# The rows of submissions

Of a row that was inserted for a submission only the grader writes a part: the state, the run time
and the memory. No call of the platform changes a row. A row goes when its problem or its contest is
removed, and a contest that has problems cannot be removed.
-/

namespace ContestPlatform

open Interleaving (Exchange)

namespace Database

/-! ## Calls and the rows of one submission -/

/-- The rows with an identifier. -/
def rowsOf (db : Database) (id : Uuid) : List SubmissionRow :=
  db.submissions.filter (·.id == id)

theorem submissionRow?_eq_head? (db : Database) (id : Uuid) :
    db.submissionRow? id = (db.rowsOf id).head? :=
  List.head?_filter.symm

theorem rowsOf_eq_nil {db : Database} {id : Uuid} :
    db.rowsOf id = [] ↔ db.hasSubmission id = false := by
  simp [rowsOf, hasSubmission, List.filter_eq_nil_iff]

theorem rowsOf_grade (db : Database) (id : Uuid) (g : Grade) (results : List ResultRow)
    (id' : Uuid) : (db.grade id g results).rowsOf id' =
      (db.rowsOf id').map fun row => if row.id = id then row.graded g else row := by
  -- A grade leaves the identifier of every row.
  have hsame : ((fun row : SubmissionRow => row.id == id') ∘
      fun row => if row.id = id then row.graded g else row) = fun row => row.id == id' := by
    funext row
    by_cases hrow : row.id = id
    · simp [hrow]
    · simp [hrow]
  simp only [rowsOf, grade, List.filter_map, hsame]

/-- A submission can be inserted only while there is its problem, and only under a new
    identifier. -/
theorem insertSubmission_ok {db : Database} {s : Submission}
    (h : (db.answer (.insertSubmission s)).1 = .ok ()) :
    db.hasProblem s.problemId = true ∧ db.rowsOf s.id = [] ∧
      ∃ row, SubmissionRow.ofSubmission? s = some row ∧
        (db.answer (.insertSubmission s)).2 =
          { db with submissions := db.submissions ++ [row] } := by
  simp only [answer, insertSubmission] at h ⊢
  cases hrow : SubmissionRow.ofSubmission? s with
  | none => simp [hrow, changed] at h
  | some row =>
    simp only [hrow] at h ⊢
    cases hnew : db.hasSubmission s.id with
    | true => simp [hnew, changed] at h
    | false =>
      cases hknown : db.hasUser s.userId && db.hasContest s.contestId &&
        db.hasProblem s.problemId with
      | false => simp [hnew, hknown, changed] at h
      | true =>
        simp only [Bool.and_eq_true] at hknown
        exact ⟨hknown.2, rowsOf_eq_nil.mpr hnew, row, rfl, by simp [changed]⟩

namespace Effect

variable {db db' : Database} {call : Call} {answer : call.Answer}

/-- The rows of a submission after a call: they are the same, or the submission was inserted, or
    they go with their problem or with a contest that has no problems. -/
theorem rowsOf (h : Effect db call answer db') (id : Uuid) :
    db'.rowsOf id = db.rowsOf id ∨
    (∃ s row, (⟨.database call, answer⟩ : Exchange) =
        ⟨.database (.insertSubmission s), Except.ok ()⟩ ∧
      SubmissionRow.ofSubmission? s = some row ∧
      db'.rowsOf id = db.rowsOf id ++ [row].filter (·.id == id)) ∨
    (∃ contestId problemId, (⟨.database call, answer⟩ : Exchange) =
        ⟨.database (.removeProblem contestId problemId), Except.ok true⟩ ∧
      db'.rowsOf id = (db.rowsOf id).filter (·.problemId != problemId)) ∨
    ∃ contestId, (db.problems.any (·.contestId == contestId)) = false ∧
      db'.rowsOf id = (db.rowsOf id).filter (·.contestId != contestId) := by
  cases h with
  | @submissionAdded s row hrow _ =>
    refine Or.inr (Or.inl ⟨s, row, rfl, hrow, ?_⟩)
    simp only [Database.rowsOf, List.filter_append]
  | @problemRemoved contestId problemId _ =>
    refine Or.inr (Or.inr (Or.inl ⟨contestId, problemId, rfl, ?_⟩))
    simp only [Database.rowsOf, dropSubmissions]
    exact List.filter_comm _ _ _
  | @contestRemoved contestId _ hempty =>
    refine Or.inr (Or.inr (Or.inr ⟨contestId, hempty, ?_⟩))
    simp only [Database.rowsOf, dropSubmissions]
    exact List.filter_comm _ _ _
  | _ => exact Or.inl rfl

/-- A row of a problem stays until it is removed. -/
theorem hasProblemOf_or_removed (h : Effect db call answer db') {contestId id : Uuid}
    (hrow : db.HasProblemOf contestId id) : db'.HasProblemOf contestId id ∨
      (⟨.database call, answer⟩ : Exchange) =
        ⟨.database (.removeProblem contestId id), Except.ok true⟩ := by
  obtain ⟨p, hp, hcontest, hid⟩ := hrow
  cases h with
  | problemAdded _ _ => exact Or.inl ⟨p, List.mem_append_left _ hp, hcontest, hid⟩
  | @problemReplaced q _ =>
    refine Or.inl ⟨_, List.mem_map.mpr ⟨p, hp, rfl⟩, ?_⟩
    split
    case isTrue hplace =>
      -- The new row has the contest and the identifier of the one that it replaces.
      obtain ⟨hcontest', hid'⟩ := isProblemOf_eq_true.mp hplace
      exact ⟨hcontest'.symm.trans hcontest, hid'.symm.trans hid⟩
    case isFalse => exact ⟨hcontest, hid⟩
  | @problemRemoved contestId' id' _ =>
    by_cases hplace : contestId = contestId' ∧ id = id'
    · obtain ⟨rfl, rfl⟩ := hplace
      exact Or.inr rfl
    · exact Or.inl ((hasProblemOf_filter rfl).mpr ⟨⟨p, hp, hcontest, hid⟩, hplace⟩)
  | _ => exact Or.inl ⟨p, hp, hcontest, hid⟩

/-- With a problem all rows of its submissions go. -/
theorem rowsOf_removeProblem {contestId problemId : Uuid}
    (h : Effect db (.removeProblem contestId problemId) (.ok true) db') (id : Uuid) :
    db'.rowsOf id = (db.rowsOf id).filter (·.problemId != problemId) := by
  cases h with
  | read hreads => exact nomatch hreads
  | problemRemoved _ =>
    simp only [Database.rowsOf, dropSubmissions]
    exact List.filter_comm _ _ _

end Effect

/-! ## What a row keeps -/

namespace SubmissionRow

/-- The row is that of a submission, but for what the grader writes. -/
def Keeps (row : SubmissionRow) (s : Submission) : Prop :=
  ofSubmission? s =
    some { row with status := s.state.name, runtime := s.runtime, memory := s.memory }

variable {row : SubmissionRow} {s : Submission}

theorem keeps_of_ofSubmission? (h : ofSubmission? s = some row) : row.Keeps s := by
  unfold Keeps
  rw [h]
  obtain ⟨_, -, h⟩ := Option.bind_eq_some_iff.mp h
  obtain ⟨createdAt, -, h⟩ := Option.bind_eq_some_iff.mp h
  cases h
  rfl

theorem Keeps.graded (h : row.Keeps s) (g : Grade) : (row.graded g).Keeps s := h

/-- The row has every field of the submission; it keeps the time in whole microseconds and the
    choices as text. -/
theorem Keeps.fields (h : row.Keeps s) : row.id = s.id ∧ row.userId = s.userId ∧
    row.contestId = s.contestId ∧ row.problemId = s.problemId ∧ row.kind = s.kind ∧
      row.language = s.language ∧ row.choices = IntList.braced s.choices ∧
        s.createdAt.stamp? = some row.createdAt := by
  obtain ⟨_, -, h⟩ := Option.bind_eq_some_iff.mp h
  obtain ⟨createdAt, hcreatedAt, h⟩ := Option.bind_eq_some_iff.mp h
  simp only [Option.pure_def, Option.some.injEq, SubmissionRow.mk.injEq] at h
  obtain ⟨hid, huser, hcontest, hproblem, hkind, hlanguage, hchoices, -, hstamp, -, -⟩ := h
  exact ⟨hid.symm, huser.symm, hcontest.symm, hproblem.symm, hkind.symm, hlanguage.symm,
    hchoices.symm, hstamp ▸ hcreatedAt⟩

end SubmissionRow

end Database

/-- A state is read back from its name. -/
theorem SubmissionState.ofText?_name (state : SubmissionState) :
    ofText? state.name = some state := by
  cases state <;> rfl

namespace Submission

/-- The submission as it is read back from a row that keeps it. -/
def asGraded (s : Submission) (row : Database.SubmissionRow) (state : SubmissionState) :
    Submission :=
  { s with
    state := state
    createdAt := .ofStamp row.createdAt
    runtime := row.runtime
    memory := row.memory }

/-- A row gives back what was handed in, the choices included. -/
theorem submission?_of_keeps {row : Database.SubmissionRow} {s : Submission}
    {state : SubmissionState} (h : row.Keeps s)
    (hstate : SubmissionState.ofText? row.status = some state) :
    row.submission? = some (s.asGraded row state) := by
  obtain ⟨hid, huser, hcontest, hproblem, hkind, hlanguage, hchoices, -⟩ := h.fields
  simp [Database.SubmissionRow.submission?, asGraded, hid, huser, hcontest, hproblem, hkind,
    hlanguage, hchoices, hstate, IntList.read_braced]

/-! ## Reading a submission -/

section Perform

variable {κ : Type} {stores : Stores κ} {id : Uuid}

/-- Without a row there is no such submission. -/
theorem perform_status_of_gone [ContentStore κ] (h : stores.database.rowsOf id = []) :
    (stores.perform (status id)).1 = .error (missing id) := by
  have hrow : stores.database.submissionRow? id = none := by
    rw [Database.submissionRow?_eq_head?, h]
    rfl
  rw [status, Stores.perform_bind, Stores.perform_database]
  simp only [Database.answer, Database.status?, hrow, Stores.perform_found_none]

theorem perform_details_of_gone [ContentStore κ] (h : stores.database.rowsOf id = []) :
    (stores.perform (details id)).1 = .error (missing id) := by
  have hrow : stores.database.submissionRow? id = none := by
    rw [Database.submissionRow?_eq_head?, h]
    rfl
  rw [details, Stores.perform_bind, Stores.perform_database]
  simp only [Database.answer, Database.submission?, hrow, Stores.perform_bind,
    Stores.perform_found_none]

/-- Details tell what was handed in, what the grader wrote, and the code. -/
theorem perform_details [LawfulContentStore κ] {s : Submission} {row : Database.SubmissionRow}
    {state : SubmissionState} {code : Option String} (hrows : stores.database.rowsOf s.id = [row])
    (hkeeps : row.Keeps s) (hstate : SubmissionState.ofText? row.status = some state)
    (hcode : match s.kind with
      | .mcq => code = none
      | .code => ∃ body, code = some body ∧ stores.texts (codeKey s.id) = some body) :
    (stores.perform (details s.id)).1 =
      .ok ⟨s.asGraded row state, code, stores.database.resultsOf s.id⟩ := by
  have hrow : stores.database.submissionRow? s.id = some row := by
    rw [Database.submissionRow?_eq_head?, hrows]
    rfl
  have hread : stores.database.submission? s.id = .ok (some (s.asGraded row state)) := by
    simp [Database.submission?, hrow, Database.readSubmission, submission?_of_keeps hkeeps hstate,
      Except.map]
  -- The results are read last, whether there is code or not.
  have hend : ∀ t : Stores κ, t.database = stores.database → ∀ code : Option String,
      (t.perform (do
        return ⟨s.asGraded row state, code, ← Service.database (.testResults s.id)⟩ :
          Service SubmissionDetails)).1 =
        .ok ⟨s.asGraded row state, code, stores.database.resultsOf s.id⟩ := by
    intro t ht code
    rw [Stores.perform_bind, Stores.perform_database, ht]
    rfl
  have hkind : (s.asGraded row state).kind = s.kind := rfl
  have hid : (s.asGraded row state).id = s.id := rfl
  rw [details, Stores.perform_bind, Stores.perform_database]
  simp only [Database.answer, hread, Stores.perform_bind, Stores.perform_found_some, hkind]
  cases hcase : s.kind with
  | mcq =>
    rw [hcase] at hcode
    subst hcode
    exact hend stores rfl none
  | code =>
    rw [hcase] at hcode
    obtain ⟨body, rfl, htext⟩ := hcode
    -- The code is kept under the key of the submission.
    have hget : (ContentStore.answer stores.content (.get (codeKey s.id))).1 = .ok body := by
      rw [LawfulContentStore.answer_eq, Content.Map.answer_get (isKey_codeKey s.id) htext]
    dsimp only
    rw [Stores.perform_bind, Stores.perform_map, Stores.perform_content, hid, hget]
    exact hend _ rfl (some body)

end Perform

end Submission

end ContestPlatform
