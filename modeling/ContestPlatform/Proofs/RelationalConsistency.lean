import ContestPlatform.Proofs.OpenRuns
import ContestPlatform.Proofs.SubmissionRecords

/-!
# The tables stay consistent

The references between the tables hold at any moment, whatever runs at the same time and fails and
is cancelled, and whatever the environment adds: problems name contests that exist, registrations
and rankings name contests and users, results name submissions. That the contest of a submission is
the contest of its problem is no constraint of the tables. It holds because the problem was found in
that contest before the row was inserted, because an identifier of a problem belongs to one contest
for good, and because the row can only be inserted while there is a problem with the identifier.
-/

namespace ContestPlatform

open Interleaving

namespace Database

/-- Tables whose references hold. -/
structure Consistent (db : Database) : Prop extends Orderly db where
  /-- The contest of a problem exists. -/
  contests : ∀ p ∈ db.problems, db.hasContest p.contestId = true
  /-- A submission is one of a user to a problem of the contest that it names. -/
  submissions : ∀ s ∈ db.submissions,
    db.HasProblemOf s.contestId s.problemId ∧ db.hasUser s.userId = true
  /-- Code comes without choices. -/
  choices : ∀ s ∈ db.submissions, s.kind = .code → IntList.read s.choices = []
  registrations : ∀ g ∈ db.registrations,
    db.hasContest g.contestId = true ∧ db.hasUser g.userId = true
  rankings : ∀ e ∈ db.rankings, db.hasContest e.contestId = true ∧ db.hasUser e.userId = true
  results : ∀ t ∈ db.results, db.hasSubmission t.submissionId = true

theorem consistent_empty : empty.Consistent := by
  constructor
  case toOrderly =>
    constructor
    case keyed => exact fun p hp => absurd hp List.not_mem_nil
    case distinct => exact fun p hp => absurd hp List.not_mem_nil
  case contests => exact fun p hp => absurd hp List.not_mem_nil
  case submissions => exact fun s hs => absurd hs List.not_mem_nil
  case choices => exact fun s hs => absurd hs List.not_mem_nil
  case registrations => exact fun g hg => absurd hg List.not_mem_nil
  case rankings => exact fun e he => absurd he List.not_mem_nil
  case results => exact fun t ht => absurd ht List.not_mem_nil

/-! ## Changes of one table -/

section Changes

variable {db : Database} (h : db.Consistent)

include h

/-- Contests and users may be added, and contests may be replaced. -/
theorem Consistent.grow {contests : List ContestRow} {users : List UserProfile}
    (hcontest : ∀ id, db.hasContest id = true → contests.any (·.id == id) = true)
    (huser : ∀ id, db.hasUser id = true → users.any (·.id == id) = true) :
    { db with contests := contests, users := users : Database }.Consistent where
  keyed := h.keyed
  distinct := h.distinct
  contests p hp := hcontest _ (h.contests p hp)
  submissions s hs := ⟨(h.submissions s hs).1, huser _ (h.submissions s hs).2⟩
  choices := h.choices
  registrations g hg := ⟨hcontest _ (h.registrations g hg).1, huser _ (h.registrations g hg).2⟩
  rankings e he := ⟨hcontest _ (h.rankings e he).1, huser _ (h.rankings e he).2⟩
  results := h.results

/-- A problem may be added under a new identifier, in a contest that exists. -/
theorem Consistent.addProblem {p : Problem} (hnew : db.hasProblem p.id = false)
    (hcontest : db.hasContest p.contestId = true)
    (hkey : p.contentKey = Problem.keyOf p.contestId p.id) :
    { db with problems := db.problems ++ [p] : Database }.Consistent := by
  have hother : ∀ q ∈ db.problems, q.id ≠ p.id := by
    intro q hq hid
    rw [hasProblem, List.any_eq_false] at hnew
    exact hnew q hq (beq_iff_eq.mpr hid)
  constructor
  case toOrderly =>
    constructor
    case keyed =>
      intro q hq
      rcases List.mem_append.mp hq with hold | hlast
      · exact h.keyed q hold
      · rw [List.mem_singleton.mp hlast]
        exact hkey
    case distinct =>
      intro q hq q' hq' hid
      rcases List.mem_append.mp hq with hold | hlast
      · rcases List.mem_append.mp hq' with hold' | hlast'
        · exact h.distinct q hold q' hold' hid
        · rw [List.mem_singleton.mp hlast'] at hid
          exact absurd hid (hother q hold)
      · rw [List.mem_singleton.mp hlast] at hid ⊢
        rcases List.mem_append.mp hq' with hold' | hlast'
        · exact absurd hid.symm (hother q' hold')
        · rw [List.mem_singleton.mp hlast']
  case contests =>
    intro q hq
    rcases List.mem_append.mp hq with hold | hlast
    · exact h.contests q hold
    · rw [List.mem_singleton.mp hlast]
      exact hcontest
  case submissions =>
    intro s hs
    obtain ⟨⟨q, hq, hplace⟩, huser⟩ := h.submissions s hs
    exact ⟨⟨q, List.mem_append_left _ hq, hplace⟩, huser⟩
  case choices => exact h.choices
  case registrations => exact h.registrations
  case rankings => exact h.rankings
  case results => exact h.results

/-- Rows of problems may be replaced where they are. -/
theorem Consistent.replaceProblems {problems : List Problem}
    (hplaces : problems.map Problem.place = db.problems.map Problem.place) :
    { db with problems := problems : Database }.Consistent := by
  have hmem : ∀ p ∈ problems, ∃ q ∈ db.problems, q.contestId = p.contestId ∧ q.id = p.id := by
    intro p hp
    have hplace := List.mem_map_of_mem (f := Problem.place) hp
    rw [hplaces, List.mem_map] at hplace
    obtain ⟨q, hq, hsame⟩ := hplace
    simp only [Problem.place, Prod.mk.injEq] at hsame
    exact ⟨q, hq, hsame.1, hsame.2.1⟩
  constructor
  case toOrderly =>
    refine ⟨(keyed_congr hplaces).mpr h.keyed, fun p hp q hq hid => ?_⟩
    obtain ⟨p', hp', hcontest, hpid⟩ := hmem p hp
    obtain ⟨q', hq', hcontest', hqid⟩ := hmem q hq
    rw [← hcontest, ← hcontest']
    apply h.distinct p' hp' q' hq'
    rw [hpid, hqid, hid]
  case contests =>
    intro p hp
    obtain ⟨q, hq, hcontest, -⟩ := hmem p hp
    rw [← hcontest]
    exact h.contests q hq
  case submissions =>
    intro s hs
    obtain ⟨hproblem, huser⟩ := h.submissions s hs
    exact ⟨(hasProblemOf_congr hplaces).mpr hproblem, huser⟩
  case choices => exact h.choices
  case registrations => exact h.registrations
  case rankings => exact h.rankings
  case results => exact h.results

/-- A submission may be added to a problem of its contest. -/
theorem Consistent.addSubmission {row : SubmissionRow}
    (hproblem : db.HasProblemOf row.contestId row.problemId)
    (huser : db.hasUser row.userId = true)
    (hchoices : row.kind = .code → IntList.read row.choices = []) :
    { db with submissions := db.submissions ++ [row] : Database }.Consistent where
  keyed := h.keyed
  distinct := h.distinct
  contests := h.contests
  submissions s hs := by
    rcases List.mem_append.mp hs with hold | hlast
    · exact h.submissions s hold
    · rw [List.mem_singleton.mp hlast]
      exact ⟨hproblem, huser⟩
  choices s hs := by
    rcases List.mem_append.mp hs with hold | hlast
    · exact h.choices s hold
    · rw [List.mem_singleton.mp hlast]
      exact hchoices
  registrations := h.registrations
  rankings := h.rankings
  results t ht := by
    have hold := h.results t ht
    simp only [hasSubmission] at hold
    simp [hasSubmission, hold]

/-- With submissions their results go. -/
theorem Consistent.dropSubmissions (p : SubmissionRow → Bool) :
    (db.dropSubmissions p).Consistent where
  keyed := h.keyed
  distinct := h.distinct
  contests := h.contests
  submissions s hs := h.submissions s (List.mem_filter.mp hs).1
  choices s hs := h.choices s (List.mem_filter.mp hs).1
  registrations := h.registrations
  rankings := h.rankings
  results t ht := by
    obtain ⟨hold, hkept⟩ := List.mem_filter.mp ht
    obtain ⟨s, hs, hid⟩ := List.any_eq_true.mp (h.results t hold)
    -- The submission is not among those that go, or its result would go too.
    have hstays : p s = false := by
      refine Bool.eq_false_iff.mpr fun hgone => ?_
      rw [Bool.not_eq_true', List.contains_eq_mem, decide_eq_false_iff_not] at hkept
      apply hkept
      rw [← beq_iff_eq.mp hid]
      exact List.mem_map_of_mem (List.mem_filter.mpr ⟨hs, hgone⟩)
    apply List.any_eq_true.mpr
    exact ⟨s, List.mem_filter.mpr ⟨hs, by simp [hstays]⟩, hid⟩

/-- A problem may be removed with its submissions. -/
theorem Consistent.removeProblem (contestId id : Uuid) :
    { db.dropSubmissions (·.problemId == id) with
      problems := db.problems.filter fun p => !isProblemOf contestId id p }.Consistent := by
  have hdropped := h.dropSubmissions (·.problemId == id)
  constructor
  case toOrderly =>
    constructor
    case keyed => exact fun p hp => h.keyed p (List.mem_filter.mp hp).1
    case distinct =>
      intro p hp q hq
      exact h.distinct p (List.mem_filter.mp hp).1 q (List.mem_filter.mp hq).1
  case contests => exact fun p hp => h.contests p (List.mem_filter.mp hp).1
  case submissions =>
    intro s hs
    obtain ⟨hproblem, huser⟩ := hdropped.submissions s hs
    refine ⟨(hasProblemOf_filter rfl).mpr ⟨hproblem, ?_⟩, huser⟩
    -- A submission to the problem is not among those that are left.
    rintro ⟨-, hid⟩
    have hkept := (List.mem_filter.mp hs).2
    simp [hid] at hkept
  case choices => exact hdropped.choices
  case registrations => exact h.registrations
  case rankings => exact h.rankings
  case results => exact hdropped.results

/-- A contest without problems may be removed with all that refers to it. -/
theorem Consistent.removeContest {id : Uuid} (hempty : db.problems.any (·.contestId == id) = false) :
    { db.dropSubmissions (·.contestId == id) with
      contests := db.contests.filter (·.id != id)
      registrations := db.registrations.filter (·.contestId != id)
      rankings := db.rankings.filter (·.contestId != id) }.Consistent := by
  have hdropped := h.dropSubmissions (·.contestId == id)
  -- Every other contest is still there.
  have hcontest : ∀ other, (other != id) = true → db.hasContest other = true →
      (db.contests.filter (·.id != id)).any (·.id == other) = true := by
    intro other hother hold
    rw [any_filter_of_imp fun r hr => ?_]
    · exact hold
    · rwa [beq_iff_eq.mp hr]
  constructor
  case toOrderly => exact ⟨h.keyed, h.distinct⟩
  case contests =>
    intro p hp
    apply hcontest _ _ (h.contests p hp)
    have hother := List.any_eq_false.mp hempty p hp
    simpa using hother
  case submissions => exact hdropped.submissions
  case choices => exact hdropped.choices
  case registrations =>
    intro g hg
    obtain ⟨hold, hother⟩ := List.mem_filter.mp hg
    exact ⟨hcontest _ hother (h.registrations g hold).1, (h.registrations g hold).2⟩
  case rankings =>
    intro e he
    obtain ⟨hold, hother⟩ := List.mem_filter.mp he
    exact ⟨hcontest _ hother (h.rankings e hold).1, (h.rankings e hold).2⟩
  case results => exact hdropped.results

end Changes

/-! ## Calls -/

/-- A call of the database keeps the references, if a problem is only inserted with its own key and
    a submission only for a user and a problem of its contest. -/
theorem Consistent.effect {db db' : Database} {call : Call} {answer : call.Answer}
    (h : db.Consistent) (heffect : Effect db call answer db')
    (hproblem : ∀ p, (⟨.database call, answer⟩ : Exchange) =
      ⟨.database (.insertProblem p), Except.ok ()⟩ → p.contentKey = Problem.keyOf p.contestId p.id)
    (hsubmission : ∀ s, (⟨.database call, answer⟩ : Exchange) =
      ⟨.database (.insertSubmission s), Except.ok ()⟩ →
        db.HasProblemOf s.contestId s.problemId ∧ db.hasUser s.userId = true ∧
          (s.kind = .code → s.choices = [])) : db'.Consistent := by
  cases heffect with
  | contestAdded _ _ =>
    apply h.grow
    · intro id hid
      rw [List.any_append]
      exact Bool.or_eq_true_iff.mpr (Or.inl hid)
    · exact fun id hid => hid
  | @contestReplaced c row hrow _ =>
    apply h.grow
    · intro id hid
      -- The new row has the identifier of the one in whose place it is put.
      obtain ⟨r, hr, hrid⟩ := List.any_eq_true.mp hid
      apply List.any_eq_true.mpr
      refine ⟨_, List.mem_map_of_mem hr, ?_⟩
      rw [ContestRow.id_replaced hrow]
      exact hrid
    · exact fun id hid => hid
  | contestRemoved _ hempty => exact h.removeContest hempty
  | registrationAdded _ _ hcontest huser =>
    refine { h with registrations := fun g hg => ?_ }
    rcases List.mem_append.mp hg with hold | hlast
    · exact h.registrations g hold
    · rw [List.mem_singleton.mp hlast]
      exact ⟨hcontest, huser⟩
  | registrationRemoved _ =>
    exact { h with registrations := fun g hg => h.registrations g (List.mem_filter.mp hg).1 }
  | problemAdded hnew hcontest => exact h.addProblem hnew hcontest (hproblem _ rfl)
  | @problemReplaced p _ =>
    apply h.replaceProblems
    rw [List.map_map]
    refine List.map_congr_left fun q hq => ?_
    simp only [Function.comp_apply]
    split
    case isTrue hplace =>
      obtain ⟨hcontest, hid⟩ := isProblemOf_eq_true.mp hplace
      simp [Problem.place, hcontest, hid]
    case isFalse => rfl
  | problemRemoved _ => exact h.removeProblem _ _
  | @submissionAdded s row hrow _ =>
    obtain ⟨hfound, huser, hchoices⟩ := hsubmission s rfl
    obtain ⟨-, hrowuser, hcontest, hid, hkind, -, hrowchoices, -⟩ :=
      (SubmissionRow.keeps_of_ofSubmission? hrow).fields
    apply h.addSubmission
    · rw [hcontest, hid]
      exact hfound
    · rw [hrowuser]
      exact huser
    · intro hcode
      rw [hkind] at hcode
      rw [hrowchoices, hchoices hcode, IntList.read_braced]
  | entryPatched _ =>
    refine { h with rankings := fun e he => ?_ }
    obtain ⟨r, hr, rfl⟩ := List.mem_map.mp he
    -- Only the flags of an entry change.
    split
    case isTrue => exact h.rankings r hr
    case isFalse => exact h.rankings r hr
  | _ => exact h

/-! ## What others do to the tables -/

/-- Rows that are added from outside. The tables refuse a ranking of a contest or a user that does
    not exist. -/
inductive Added (db : Database) : Database → Prop where
  | user (profile : UserProfile) : Added db { db with users := db.users ++ [profile] }
  | admin (userId : Uuid) : Added db { db with admins := db.admins ++ [userId] }
  | ranking (entry : RankingRow) (hcontest : db.hasContest entry.contestId = true)
      (huser : db.hasUser entry.userId = true) :
      Added db { db with rankings := db.rankings ++ [entry] }

/-- What others than the platform do to the tables: rows are added, submissions are graded, and
    results of submissions are kept. The tables refuse a result of no submission. -/
inductive Outside (db : Database) : Database → Prop where
  | added {db' : Database} (hadded : db.Added db') : Outside db db'
  | graded (id : Uuid) (g : Grade) : Outside db (db.grade id g db.results)
  | result (row : ResultRow) (hsubmission : db.hasSubmission row.submissionId = true) :
      Outside db { db with results := db.results ++ [row] }

theorem Added.problems_eq {db db' : Database} (h : db.Added db') : db'.problems = db.problems := by
  cases h <;> rfl

theorem Outside.problems_eq {db db' : Database} (h : db.Outside db') :
    db'.problems = db.problems := by
  cases h with
  | added hadded => exact hadded.problems_eq
  | graded => rfl
  | result => rfl

theorem Consistent.added {db db' : Database} (h : db.Consistent) (hadded : db.Added db') :
    db'.Consistent := by
  cases hadded with
  | user profile =>
    apply h.grow
    · exact fun id hid => hid
    · intro id hid
      rw [List.any_append]
      exact Bool.or_eq_true_iff.mpr (Or.inl hid)
  | admin userId => exact { h with }
  | ranking entry hcontest huser =>
    refine { h with rankings := fun e he => ?_ }
    rcases List.mem_append.mp he with hold | hlast
    · exact h.rankings e hold
    · rw [List.mem_singleton.mp hlast]
      exact ⟨hcontest, huser⟩

theorem hasSubmission_grade (db : Database) (id : Uuid) (g : Grade) (results : List ResultRow)
    (id' : Uuid) : (db.grade id g results).hasSubmission id' = db.hasSubmission id' := by
  simp only [hasSubmission, grade, List.any_map]
  refine congrArg (List.any db.submissions) (funext fun row => ?_)
  simp only [Function.comp_apply]
  split
  case isTrue => rfl
  case isFalse => rfl

/-- A grade leaves all that refers to other tables. -/
theorem Consistent.graded {db : Database} (h : db.Consistent) (id : Uuid) (g : Grade) :
    (db.grade id g db.results).Consistent := by
  have hmem : ∀ s ∈ (db.grade id g db.results).submissions, ∃ row ∈ db.submissions,
      s = row ∨ s = row.graded g := by
    intro s hs
    obtain ⟨row, hrow, rfl⟩ := List.mem_map.mp hs
    refine ⟨row, hrow, ?_⟩
    split
    case isTrue => exact Or.inr rfl
    case isFalse => exact Or.inl rfl
  refine { h with submissions := fun s hs => ?_, choices := fun s hs => ?_, results := fun t ht => ?_ }
  · obtain ⟨row, hrow, rfl | rfl⟩ := hmem s hs
    · exact h.submissions _ hrow
    · exact h.submissions row hrow
  · obtain ⟨row, hrow, rfl | rfl⟩ := hmem s hs
    · exact h.choices _ hrow
    · exact h.choices row hrow
  · rw [hasSubmission_grade]
    exact h.results t ht

theorem Consistent.outside {db db' : Database} (h : db.Consistent) (houtside : db.Outside db') :
    db'.Consistent := by
  cases houtside with
  | added hadded => exact h.added hadded
  | graded id g => exact h.graded id g
  | result row hsubmission =>
    refine { h with results := fun t ht => ?_ }
    rcases List.mem_append.mp ht with hold | hlast
    · exact h.results t hold
    · rw [List.mem_singleton.mp hlast]
      exact hsubmission

/-- A submission is only inserted for a user who exists. -/
theorem hasUser_of_insertSubmission_ok {db : Database} {s : Submission}
    (h : (db.answer (.insertSubmission s)).1 = .ok ()) : db.hasUser s.userId = true := by
  simp only [answer, insertSubmission] at h
  cases hrow : SubmissionRow.ofSubmission? s with
  | none => simp [hrow, changed] at h
  | some row =>
    cases hnew : db.hasSubmission s.id with
    | true => simp [hrow, hnew, changed] at h
    | false =>
      cases huser : db.hasUser s.userId with
      | false => simp [hrow, hnew, huser, changed] at h
      | true => rfl

end Database

/-! ## Any moment of a run -/

namespace Problem.Settled

variable {κ : Type} {start : Database} {s : Shared κ}

/-- Who leaves the rows of problems alone has nothing to do with where they come from. -/
theorem withTables (h : Settled start s) {db : Database}
    (hproblems : db.problems = s.stores.database.problems) : Settled start (s.withTables db) := by
  have hplaces : db.problems.map place = s.stores.database.problems.map place := by
    rw [hproblems]
  have hrow : ∀ {contestId id}, db.HasProblemOf contestId id ↔
      s.stores.database.HasProblemOf contestId id := Database.hasProblemOf_congr hplaces
  constructor
  case drawnOnce => exact h.drawnOnce
  case drawn => exact h.drawn
  case keyed => exact (Database.keyed_congr hplaces).mpr h.keyed
  case placed => exact fun hdb => h.placed (hrow.mp hdb)
  case one => exact h.one
  case found => exact h.found
  case deleted =>
    intro contestId id hdeleted
    obtain ⟨hplaced, hgone⟩ := h.deleted hdeleted
    exact ⟨hplaced, fun hdb => hgone (hrow.mp hdb)⟩

variable [ContentStore κ] {r : Regime} {i : Nat} {operation : Operation} {stores : Stores κ}

/-- When a submission is inserted, its problem is there, in the contest that the submission names.
    The problem was found in that contest before, and a row with its identifier is still there. -/
theorem problem_of_inserted (h : Settled start s) {sub : Submission}
    {next : Except Fault Unit → StoreProgram (Except Fault Json)}
    (hleads : Leads operation.run.run (exchangesOf s.log i)
      (.ask (.database (.insertSubmission sub)) next))
    (hans : Answered r s (.database (.insertSubmission sub)) (Except.ok ()) stores) :
    s.stores.database.HasProblemOf sub.contestId sub.problemId ∧
      s.stores.database.hasUser sub.userId = true ∧ (sub.kind = .code → sub.choices = []) := by
  obtain ⟨new, rfl⟩ := hleads.mayAsk.insertSubmission
  obtain ⟨problem, id, now, hsub, hexchanges⟩ := Submission.inserted_of_leads hleads
  have hmem : ⟨.database (.findProblem new.contestId new.problemId), Except.ok (some problem)⟩ ∈
      exchangesOf s.log i := by
    rw [hexchanges]
    simp
  obtain ⟨e, he, -, hfound⟩ := mem_exchangesOf.mp hmem
  have hplaced := (h.found e he _ _ _ hfound).1
  have hok := hans.database_ok.1
  obtain ⟨q, hq, hqid⟩ := List.any_eq_true.mp (Database.insertSubmission_ok hok).1
  rw [beq_iff_eq] at hqid
  have hcontest : sub.contestId = new.contestId := by
    rw [hsub]
    rfl
  have hproblem : sub.problemId = new.problemId := by
    rw [hsub]
    rfl
  refine ⟨⟨q, hq, ?_, hqid⟩, Database.hasUser_of_insertSubmission_ok hok, fun hkind => ?_⟩
  · -- An identifier of a problem belongs to one contest.
    rw [hcontest]
    apply h.one _ hplaced
    rw [← hproblem]
    exact h.placed ⟨q, hq, rfl, hqid⟩
  · rw [hsub] at hkind ⊢
    change new.kind = .code at hkind
    simp only [Submission.ofNew, hkind]

/-- A call of a task keeps the references: what it inserts is what the task was told before. -/
theorem consistent_after (h : Settled start s) (hnew : DrawsNew start s.log)
    (hconsistent : s.stores.database.Consistent) {call : Call} {answer : call.Answer}
    {next : call.Answer → StoreProgram (Except Fault Json)}
    (hleads : Leads operation.run.run (exchangesOf s.log i) (.ask call next))
    (hans : Answered r s call answer stores) : stores.database.Consistent := by
  cases call with
  | now | freshId | content =>
    rw [hans.database_of_other (fun _ => nofun)]
    exact hconsistent
  | database call =>
    apply hconsistent.effect hans.effect.1
    · intro p hinsert
      cases hinsert
      exact (h.unplaced hnew hleads).2.1
    · intro sub hinsert
      cases hinsert
      exact h.problem_of_inserted hleads hans

end Problem.Settled

section Runs

variable {κ : Type} [ContentStore κ] {r : Regime} {stores : Stores κ} {P : Pool κ}

/-- The references last in any environment that keeps them and leaves the problems alone. -/
theorem Database.Consistent.lasts {world : Database → Database → Prop}
    (hstart : stores.database.Consistent)
    (hreach : OpenReachable r world (Pool.initial stores) P)
    (hnew : Problem.DrawsNew stores.database P.log)
    (hproblems : ∀ {db db' : Database}, world db db' → db'.problems = db.problems)
    (hworld : ∀ {db db' : Database}, db.Consistent → world db db' → db'.Consistent) :
    P.stores.database.Consistent := by
  have hall : Problem.DrawsNew stores.database P.log →
      Problem.Settled stores.database P.toShared ∧ P.stores.database.Consistent := by
    -- Along the run: where a problem belongs is settled by what was drawn and inserted before. An
    -- identifier that is drawn new at the end was drawn new all along.
    refine hreach.invariant (I := fun s => Problem.DrawsNew stores.database s.log →
      Problem.Settled stores.database s ∧ s.stores.database.Consistent)
      (fun _ => ⟨.of_start hstart.toOrderly, hstart⟩) ?_ ?_
    · intro s i operation call next answer stores' ih _ hleads hans hdraws
      have hbefore : Problem.DrawsNew stores.database s.log := hdraws.of_append
      obtain ⟨hsettled, hconsistent⟩ := ih hbefore
      exact ⟨hsettled.after hbefore hleads hans,
        hsettled.consistent_after hbefore hconsistent hleads hans⟩
    · intro s db ih hchange hdraws
      obtain ⟨hsettled, hconsistent⟩ := ih hdraws
      exact ⟨hsettled.withTables (hproblems hchange), hworld hconsistent hchange⟩
  exact (hall hnew).2

/-- Whatever operations run at the same time, fail and are cancelled, and whatever is added and
    graded from outside: at any moment the references of the tables hold. -/
theorem consistent_of_reachable (hstart : stores.database.Consistent)
    (hreach : OpenReachable r Database.Outside (Pool.initial stores) P)
    (hnew : Problem.DrawsNew stores.database P.log) : P.stores.database.Consistent :=
  hstart.lasts hreach hnew Database.Outside.problems_eq Database.Consistent.outside

end Runs

/-! ## A submission that is graded while its problem is deleted -/

theorem consistent_codeStores : Submission.codeStores.database.Consistent := by
  constructor
  case toOrderly =>
    constructor
    case keyed =>
      intro p hp
      rw [List.mem_singleton.mp hp]
      rfl
    case distinct =>
      intro p hp q hq _
      rw [List.mem_singleton.mp hp, List.mem_singleton.mp hq]
  case contests =>
    intro p hp
    rw [List.mem_singleton.mp hp]
    rfl
  case submissions => exact fun s hs => absurd hs List.not_mem_nil
  case choices => exact fun s hs => absurd hs List.not_mem_nil
  case registrations => exact fun g hg => absurd hg List.not_mem_nil
  case rankings => exact fun e he => absurd he List.not_mem_nil
  case results => exact fun t ht => absurd ht List.not_mem_nil

/-- Code is handed in while its problem is being deleted, and it is graded at once. -/
private theorem reachable_during_deletion :
    ∃ P : Pool Content.Memory,
      OpenReachable Submission.unrestrained Database.Outside
        (Pool.initial Submission.codeStores) P ∧
      Problem.DrawsNew Submission.codeStores.database P.log ∧
      P.stores.database.submissions.length = 1 ∧ P.stores.database.results.length = 1 := by
  have hsteps := Relation.ReflTransGen.refl
    (r := OpenStep Submission.unrestrained Database.Outside)
    (a := Pool.initial Submission.codeStores)
  -- The deletion and the submission both find the problem, and the row is inserted in between.
  replace hsteps := hsteps.tail (.step (.begin_ _ (.deleteProblem (.ofNat 1) (.ofNat 2)) trivial))
  replace hsteps := hsteps.tail (.step (.call (i := 0) _ rfl (.database _ fun _ => trivial)))
  replace hsteps := hsteps.tail
    (.step (.begin_ _ (.createSubmission (.ofNat 7) Submission.echoCode) trivial))
  replace hsteps := hsteps.tail (.step (.call (i := 1) _ rfl (.database _ fun _ => trivial)))
  replace hsteps := hsteps.tail (.step (.call (i := 1) _ rfl (.fresh (.ofNat 3) ?_)))
  replace hsteps := hsteps.tail (.step (.call (i := 1) _ rfl (.clock ⟨1704067200, 0⟩)))
  replace hsteps := hsteps.tail (.step (.call (i := 1) _ rfl (.database _ fun _ => trivial)))
  replace hsteps := hsteps.tail (.outside _ (.graded (.ofNat 3) ⟨"accepted", some 12, some 2048⟩))
  replace hsteps := hsteps.tail (.outside _ (.result
    { (default : Database.ResultRow) with id := .ofNat 4, submissionId := .ofNat 3 } rfl))
  refine ⟨_, hsteps, ?_, rfl, rfl⟩
  · intro e he id hdrawn
    iterate 5
      rcases he with _ | ⟨_, he⟩
      · cases hdrawn <;> rfl
    exact nomatch he
  · -- Only the problem was looked for before the identifier is drawn.
    rintro task ⟨e, he, -, h⟩
    iterate 2
      rcases he with _ | ⟨_, he⟩
      · exact nomatch h
    exact nomatch he

/-- Code that is handed in and graded while its problem is being deleted names a problem of its
    contest, and the result names the submission. -/
theorem consistent_during_deletion :
    ∃ P : Pool Content.Memory,
      OpenReachable Submission.unrestrained Database.Outside
        (Pool.initial Submission.codeStores) P ∧
      P.stores.database.submissions.length = 1 ∧ P.stores.database.results.length = 1 ∧
      P.stores.database.Consistent := by
  obtain ⟨P, hreach, hnew, hsubmissions, hresults⟩ := reachable_during_deletion
  exact ⟨P, hreach, hsubmissions, hresults,
    consistent_of_reachable consistent_codeStores hreach hnew⟩

end ContestPlatform
