import ContestPlatform.Proofs.Courses
import ContestPlatform.Proofs.SubmissionPipeline
import ContestPlatform.Proofs.UniqueKeys

/-!
# The scope of the operations on a problem

A problem is named together with its contest. If there is no such problem in that contest, whether or
not there is one elsewhere, every operation that names it says that it is not found, and nothing
changes. Otherwise a change of the problem touches no other row, and no text but the statement of the
problem; and a deletion takes along what was handed in to the problem, the results of that and the
statement, and nothing else.
-/

namespace ContestPlatform

open Interleaving

/-! ## The row of a problem -/

namespace Database

section Rows

variable {db : Database} {contestId id : Uuid} {q : Problem}

theorem problem?_eq_none (h : ¬ db.HasProblemOf contestId id) : db.problem? contestId id = none := by
  cases hfound : db.problem? contestId id with
  | none => rfl
  | some q =>
    obtain ⟨hq, hcontest, hid⟩ := mem_of_problem? hfound
    exact absurd ⟨q, hq, hcontest, hid⟩ h

namespace Constrained

variable (h : db.Constrained) (hq : q ∈ db.problems)

include h hq

/-- A row is the only one that is found under its contest and its identifier. -/
theorem isProblemOf_iff {r : Problem} (hr : r ∈ db.problems) :
    isProblemOf q.contestId q.id r = true ↔ r = q := by
  rw [isProblemOf_eq_true]
  constructor
  · rintro ⟨-, hid⟩
    exact h.problems.eq hr hq hid
  · rintro rfl
    exact ⟨rfl, rfl⟩

theorem problem?_eq : db.problem? q.contestId q.id = some q := by
  have hrow : db.HasProblemOf q.contestId q.id := ⟨q, hq, rfl, rfl⟩
  obtain ⟨r, hr⟩ := exists_problem? hrow
  have hmem := List.mem_of_find?_eq_some hr
  rw [hr, (h.isProblemOf_iff hq hmem).mp (List.find?_some hr)]

/-- So it is the only one that is replaced, -/
theorem map_isProblemOf (f : Problem → Problem) :
    (db.problems.map fun r => if isProblemOf q.contestId q.id r then f r else r) =
      db.problems.map fun r => if r = q then f q else r := by
  refine List.map_congr_left fun r hr => ?_
  by_cases hsame : r = q
  · rw [if_pos ((h.isProblemOf_iff hq hr).mpr hsame), if_pos hsame, hsame]
  · rw [if_neg (mt (h.isProblemOf_iff hq hr).mp hsame), if_neg hsame]

/-- and the only one that is removed. -/
theorem filter_isProblemOf :
    (db.problems.filter fun r => !isProblemOf q.contestId q.id r) =
      db.problems.filter (· ≠ q) := by
  refine List.filter_congr fun r hr => ?_
  rw [Bool.eq_iff_iff, Bool.not_eq_true', ← Bool.not_eq_true, h.isProblemOf_iff hq hr,
    decide_eq_true_iff]

end Constrained

end Rows

/-! ### Writing and removing the row -/

/-- The tables without a problem, what was handed in to it, and the results of that. -/
def withoutProblem (db : Database) (q : Problem) : Database :=
  { db with
    problems := db.problems.filter (· ≠ q)
    submissions := db.submissions.filter (·.problemId != q.id)
    results := db.results.filter fun t =>
      !db.submissions.any fun s => s.problemId == q.id && s.id == t.submissionId }

/-- A replacement puts the problem in the place of a row, or does nothing. -/
theorem Effect.of_replaceProblem {db db' : Database} {p : Problem}
    {answer : (Call.replaceProblem p).Answer} (h : Effect db (.replaceProblem p) answer db') :
    db' = db ∨ db' = db.withProblems (db.problems.map fun r =>
      if isProblemOf p.contestId p.id r then { p with contentKey := r.contentKey } else r) := by
  cases h with
  | problemReplaced => exact Or.inr rfl
  | _ => exact Or.inl rfl

/-- A result goes if its submission does. -/
theorem contains_dropped (db : Database) (p : SubmissionRow → Bool) (id : Uuid) :
    ((db.submissions.filter p).map (·.id)).contains id =
      db.submissions.any fun s => p s && s.id == id := by
  rw [Bool.eq_iff_iff]
  simp only [List.contains_eq_mem, decide_eq_true_iff, List.mem_map, List.mem_filter,
    List.any_eq_true, Bool.and_eq_true, beq_iff_eq, and_assoc]

theorem Constrained.answer_removeProblem {db : Database} (h : db.Constrained) {q : Problem}
    (hq : q ∈ db.problems) :
    db.answer (.removeProblem q.contestId q.id) = (.ok true, db.withoutProblem q) := by
  have hfound : db.problems.any (isProblemOf q.contestId q.id) = true :=
    any_isProblemOf.mpr ⟨q, hq, rfl, rfl⟩
  have hremoved : db.removeProblem q.contestId q.id = (true, db.withoutProblem q) := by
    unfold removeProblem
    rw [if_pos hfound]
    simp only [dropSubmissions, contains_dropped, h.filter_isProblemOf hq, withoutProblem, bne]
  rw [answer, hremoved]
  rfl

end Database

/-! ## A problem that is not there -/

section Absent

variable {κ : Type} [ContentStore κ] {s : Stores κ} {contestId id : Uuid}
  (h : ¬ s.database.HasProblemOf contestId id)

include h

theorem Problem.perform_find_of_absent :
    s.perform (find contestId id) = (.error (missing id), s) := by
  have hanswer : s.database.answer (.findProblem contestId id) = (.ok none, s.database) := by
    rw [Database.answer, Database.problem?_eq_none h]
  rw [find, s.perform_read hanswer, s.perform_found_none]

/-- Nothing is handed in to a problem that is not there; that code is missing is told first. -/
theorem Submission.perform_create_of_absent (userId : Uuid) {new : NewSubmission}
    (hcontest : new.contestId = contestId) (hproblem : new.problemId = id) :
    s.perform (create userId new) =
      (.error (if new.kind = .code ∧ new.code = none then .validation .codeMissing
        else Problem.missing id), s) := by
  subst hcontest hproblem
  have hcreate := perform_create s userId new
  simp only [demands, Database.problem?_eq_none h] at hcreate
  -- Whether code is missing is asked before the problem is looked for.
  cases hkind : new.kind with
  | mcq =>
    rw [hkind] at hcreate
    exact hcreate
  | code =>
    rw [hkind] at hcreate
    cases hcode : new.code with
    | none =>
      rw [hcode] at hcreate
      exact hcreate
    | some body =>
      rw [hcode] at hcreate
      exact hcreate

end Absent

/-! ## A problem that is changed -/

section Change

variable {κ : Type} [LawfulContentStore κ] {mayFail : Prop} {s s' t t' : Stores κ} {q : Problem}

namespace Problem

/-- At most the row of a problem and the text of its statement have changed, and the row is still one
    of its contest, with its identifier and its key. -/
structure ChangedOnly (q : Problem) (s t : Stores κ) : Prop where
  tables : ∃ row : Problem, row.place = q.place ∧ t.database =
    s.database.withProblems (s.database.problems.map fun r => if r = q then row else r)
  texts : ∀ key, key ≠ q.contentKey → t.texts key = s.texts key

theorem ChangedOnly.of_database (hdatabase : t.database = s.database)
    (htexts : ∀ key, key ≠ q.contentKey → t.texts key = s.texts key) : q.ChangedOnly s t := by
  refine ⟨⟨q, rfl, ?_⟩, htexts⟩
  have hsame : (s.database.problems.map fun r => if r = q then q else r) = s.database.problems := by
    refine (List.map_congr_left fun r _ => ?_).trans (List.map_id _)
    split
    case isTrue h => exact h.symm
    case isFalse => rfl
  rw [hsame, hdatabase]
  rfl

/-- The statement may be written and removed. -/
theorem ChangedOnly.content (h : q.ChangedOnly s t) {call : Content.Call} {answer : call.Answer}
    (hreply : Reply mayFail t (.content call) answer t') (hkey : call.key = q.contentKey) :
    q.ChangedOnly s t' where
  tables := by
    rw [hreply.database_of_other fun _ => nofun]
    exact h.tables
  texts key hother := by
    have hcall : call.key ≠ key := hkey ▸ hother.symm
    exact (hreply.texts_other hcall).trans (h.texts key hother)

/-- The row may be replaced by one that belongs where it does. -/
theorem ChangedOnly.replace (hs : s.database.Constrained) (hq : q ∈ s.database.problems)
    (hdatabase : t.database = s.database)
    (htexts : ∀ key, key ≠ q.contentKey → t.texts key = s.texts key) {p : Problem}
    (hplace : p.place = q.place) {answer : Except Fault Bool}
    (hreply : Reply mayFail t (.database (.replaceProblem p)) answer t') : q.ChangedOnly s t' := by
  obtain ⟨heffect, hcontent⟩ := hreply.effect
  have hkept : ∀ key, key ≠ q.contentKey → t'.texts key = s.texts key := by
    intro key hother
    rw [← htexts key hother, Stores.texts, hcontent]
  rw [hdatabase] at heffect
  rcases heffect.of_replaceProblem with hsame | hreplaced
  · exact .of_database hsame hkept
  · refine ⟨⟨p, hplace, ?_⟩, hkept⟩
    simp only [place, Prod.mk.injEq] at hplace
    obtain ⟨hcontest, hid, hkey⟩ := hplace
    have hmap := hs.map_isProblemOf hq fun r => { p with contentKey := r.contentKey }
    rw [← hcontest, ← hid, ← hkey] at hmap
    rw [hreplaced, hmap]

/-- So it is for the rest of a change, after the statement was written, if there is a new one. -/
theorem along_replaceCalls (hs : s.database.Constrained) (hq : q ∈ s.database.problems)
    (hdatabase : t.database = s.database)
    (htexts : ∀ key, key ≠ q.contentKey → t.texts key = s.texts key) {p : Problem}
    (hplace : p.place = q.place) (id : Uuid) (wrote : Bool) :
    Along mayFail (q.ChangedOnly s) (replaceCalls id p wrote) t := by
  refine .ask (.of_database hdatabase htexts) fun answer t' hreply => ?_
  have hreplaced := ChangedOnly.replace hs hq hdatabase htexts hplace hreply
  rcases answer with fault | (_ | _)
  · exact .done hreplaced
  · cases wrote with
    | false => exact .done hreplaced
    | true =>
      -- The row is gone, so the statement is removed again.
      have hkey : p.contentKey = q.contentKey := congrArg (·.2.2) hplace
      exact .ask hreplaced fun _ t'' hdelete => .done (hreplaced.content hdelete hkey)
  · exact .done hreplaced

/-- A change of a problem touches its row and its statement, whatever fails and wherever it is cut
    off. -/
theorem along_update (hs : s.database.Constrained) (hq : q ∈ s.database.problems)
    (change : ProblemChange) :
    Along mayFail (q.ChangedOnly s)
      (Operation.updateProblem q.contestId q.id change).run.run s := by
  rw [calls_update]
  refine .ask (.of_database rfl fun _ _ => rfl) fun found t hfind => ?_
  have hkept : Kept s t := hfind.kept rfl
  have htexts : ∀ key, key ≠ q.contentKey → t.texts key = s.texts key :=
    fun key _ => congrFun hkept.texts key
  have hbefore : q.ChangedOnly s t := .of_database hkept.database htexts
  rcases found with fault | (_ | p)
  · exact .done hbefore
  · exact .done hbefore
  -- What was found is the row.
  have hp : s.database.problem? q.contestId q.id = some p := Except.ok.inj hfind.database_ok.1
  rw [hs.problem?_eq hq] at hp
  cases hp
  cases hdescription : change.description with
  | none => exact along_replaceCalls hs hq hkept.database htexts (place_apply q change) _ _
  | some description =>
    refine .ask hbefore fun stored t' hput => ?_
    rcases stored with fault | _
    · exact .done (hbefore.content hput rfl)
    · refine along_replaceCalls hs hq ?_ ?_ (place_apply q change) _ _
      · exact (hput.database_of_other fun _ => nofun).trans hkept.database
      · exact (hbefore.content hput rfl).texts

/-- A problem that is there is deleted with all that belongs to it. -/
theorem perform_delete (hs : s.database.Constrained) (hkeyed : s.database.Keyed)
    (hq : q ∈ s.database.problems) :
    ∃ content, s.perform (delete q.contestId q.id) =
        (.ok (), { s with database := s.database.withoutProblem q, content }) ∧
      LawfulContentStore.texts content = Function.update s.texts q.contentKey none := by
  have hanswer : s.database.answer (.findProblem q.contestId q.id) = (.ok (some q), s.database) := by
    rw [Database.answer, hs.problem?_eq hq]
  have hfind : s.perform (find q.contestId q.id) = (.ok q, s) := by
    rw [find, s.perform_read hanswer, s.perform_found_some]
  have hremove := s.perform_of_answer (hs.answer_removeProblem hq)
  refine ⟨(ContentStore.answer s.content (.delete q.contentKey)).2, ?_, ?_⟩
  · rw [delete, Stores.perform_bind_of_ok hfind, Stores.perform_bind_of_ok hremove]
    rfl
  · -- The key of a statement is one that the store accepts, so the deletion works.
    have hkey : Content.isKey q.contentKey = true := by
      rw [hkeyed q hq]
      exact isKey_keyOf q.contestId q.id
    rw [LawfulContentStore.texts_answer, Content.Map.answer_delete_of_isKey hkey]

end Problem

end Change

/-! ## Any moment of a run -/

section Runs

variable {κ : Type} [LawfulContentStore κ] {r : Regime} {stores : Stores κ} {P : Pool κ}

/-- At any moment, operations that name a problem with a contest to which it does not belong say that
    there is no such problem, and change nothing. If it belongs to the contest, then a change of the
    problem touches its row and its statement at most, whatever fails and wherever it is cut off; and
    to delete it takes its row, what was handed in to it, the results of that and its statement, and
    nothing else. -/
theorem problem_operations_in_scope (hconsistent : stores.database.Consistent)
    (hconstrained : stores.database.Constrained)
    (hreach : OpenReachable r Database.Elsewhere (Pool.initial stores) P)
    (hnew : Problem.DrawsNew stores.database P.log) (contestId id : Uuid) :
    let s := P.stores
    (¬ s.database.HasProblemOf contestId id →
      s.perform (Problem.get contestId id) = (.error (Problem.missing id), s) ∧
      (∀ change,
        s.perform (Problem.update contestId id change) = (.error (Problem.missing id), s)) ∧
      s.perform (Problem.delete contestId id) = (.error (Problem.missing id), s) ∧
      ∀ userId (new : NewSubmission), new.contestId = contestId → new.problemId = id →
        s.perform (Submission.create userId new) =
          (.error (if new.kind = .code ∧ new.code = none then .validation .codeMissing
            else Problem.missing id), s)) ∧
    ∀ q ∈ s.database.problems, q.contestId = contestId → q.id = id →
      (∀ change, Along True (q.ChangedOnly s)
        (Operation.updateProblem contestId id change).run.run s) ∧
      ∃ content, s.perform (Problem.delete contestId id) =
          (.ok (), { s with database := s.database.withoutProblem q, content }) ∧
        LawfulContentStore.texts content = Function.update s.texts q.contentKey none := by
  intro s
  obtain ⟨hs, hkeys⟩ := Database.sound_of_reachable hconsistent hconstrained hreach hnew
  constructor
  · intro habsent
    have hfind := Problem.perform_find_of_absent habsent
    refine ⟨Stores.perform_bind_of_error hfind, fun change => Stores.perform_bind_of_error hfind,
      Stores.perform_bind_of_error hfind, ?_⟩
    exact fun userId new hcontest hproblem =>
      Submission.perform_create_of_absent habsent userId hcontest hproblem
  · rintro q hq rfl rfl
    exact ⟨Problem.along_update hkeys hq, Problem.perform_delete hkeys hs.keyed hq⟩

end Runs

/-! ### A problem with a submission -/

/-- Code is handed in to the only problem. -/
private theorem reachable_with_submission :
    ∃ P : Pool Content.Memory,
      OpenReachable Submission.unrestrained Database.Elsewhere
        (Pool.initial Submission.codeStores) P ∧
      Problem.DrawsNew Submission.codeStores.database P.log ∧
      P.stores.database.problems = [Submission.codeProblem] ∧
      P.stores.database.submissions.map (·.problemId) = [.ofNat 2] := by
  have hsteps := Relation.ReflTransGen.refl
    (r := OpenStep Submission.unrestrained Database.Elsewhere)
    (a := Pool.initial Submission.codeStores)
  replace hsteps := hsteps.tail
    (.step (.begin_ _ (.createSubmission (.ofNat 7) Submission.echoCode) trivial))
  replace hsteps := hsteps.tail (.step (.call (i := 0) _ rfl (.database _ fun _ => trivial)))
  replace hsteps := hsteps.tail (.step (.call (i := 0) _ rfl (.fresh (.ofNat 3) ?_)))
  replace hsteps := hsteps.tail (.step (.call (i := 0) _ rfl (.clock ⟨1704067200, 0⟩)))
  replace hsteps := hsteps.tail (.step (.call (i := 0) _ rfl (.database _ fun _ => trivial)))
  refine ⟨_, hsteps, ?_, rfl, rfl⟩
  · intro e he id hdrawn
    iterate 4
      rcases he with _ | ⟨_, he⟩
      · cases hdrawn <;> rfl
    exact nomatch he
  · -- Only the problem was looked for before the identifier is drawn.
    rintro task ⟨e, he, -, h⟩
    rcases he with _ | ⟨_, he⟩
    · exact nomatch h
    · exact nomatch he

/-- The problem is not found in another contest, and its submission goes with it. -/
theorem deleted_with_its_submission :
    ∃ P : Pool Content.Memory,
      OpenReachable Submission.unrestrained Database.Elsewhere
        (Pool.initial Submission.codeStores) P ∧
      P.stores.database.submissions.length = 1 ∧
      P.stores.perform (Problem.delete (.ofNat 9) (.ofNat 2)) =
        (.error (Problem.missing (.ofNat 2)), P.stores) ∧
      ∃ s, P.stores.perform (Problem.delete (.ofNat 1) (.ofNat 2)) = (.ok (), s) ∧
        s.database.problems = [] ∧ s.database.submissions = [] := by
  obtain ⟨P, hreach, hnew, hproblems, hsubmissions⟩ := reachable_with_submission
  have hscope := problem_operations_in_scope consistent_codeStores constrained_codeStores hreach hnew
  have hlength := congrArg List.length hsubmissions
  rw [List.length_map] at hlength
  have helsewhere : ¬ P.stores.database.HasProblemOf (.ofNat 9) (.ofNat 2) := by
    rw [Database.HasProblemOf, hproblems]
    decide
  have hrow : Submission.codeProblem ∈ P.stores.database.problems := by
    rw [hproblems]
    exact List.mem_singleton_self _
  obtain ⟨-, -, hrefused, -⟩ := (hscope (.ofNat 9) (.ofNat 2)).1 helsewhere
  obtain ⟨-, content, hdone, -⟩ := (hscope (.ofNat 1) (.ofNat 2)).2 _ hrow rfl rfl
  refine ⟨P, hreach, hlength, hrefused, _, hdone, ?_, ?_⟩
  · simp [Database.withoutProblem, hproblems]
  · -- The problem of every submission is the one that goes.
    rw [Database.withoutProblem, List.filter_eq_nil_iff]
    intro row hrow
    have hproblem := List.mem_map_of_mem (f := Database.SubmissionRow.problemId) hrow
    rw [hsubmissions, List.mem_singleton] at hproblem
    simp [hproblem, Submission.codeProblem]

end ContestPlatform
