import ContestPlatform.Database.Call

/-!
# What a call does to the tables

Every answer of the database comes with one of a few effects: a call that fails or only reads has
none, a call that finds nothing to change has none, and every other call adds, replaces or removes
the rows that it names. `Effect` lists them with the tests that were passed, and `effect_answer`
says that there are no others. What the rest of the theory needs of single calls is read off this
list.
-/

namespace ContestPlatform.Database

/-- The calls that only read. -/
def Call.reads : Call → Bool
  | .findContest _ | .contestExists _ | .contestPage .. | .isRegistered .. | .registrations _
  | .findProblem .. | .overviews _ | .findSubmission _ | .submissionStatus _ | .testResults _
  | .submissionPage .. | .isAdmin _ | .findProfile _ => true
  | .insertContest _ | .replaceContest _ | .removeContest _ | .insertRegistration ..
  | .removeRegistration .. | .insertProblem _ | .replaceProblem _ | .removeProblem ..
  | .insertSubmission _ | .patchRanking .. => false

/-- The answer says that there was nothing to replace or to remove, or nothing to add any more. -/
def Call.denies : (call : Call) → call.Answer → Bool
  | .replaceContest _, .ok false | .removeContest _, .ok false | .insertRegistration .., .ok false
  | .removeRegistration .., .ok false | .replaceProblem _, .ok false | .removeProblem .., .ok false
  | .patchRanking .., .ok false => true
  | _, _ => false

variable {db db' : Database}

/-- What a call may be answered and what it does to the tables then. -/
inductive Effect (db : Database) : (call : Call) → call.Answer → Database → Prop where
  | refused {call : Call} (fault : Fault) (hkind : fault.kind = .infrastructure) :
      Effect db call (.error fault) db
  | read {call : Call} (hreads : call.reads = true) (answer : call.Answer) :
      Effect db call answer db
  | contestAdded {c : Contest} {row : ContestRow} (hrow : ContestRow.ofContest? c = some row)
      (hnew : db.hasContest c.id = false) :
      Effect db (.insertContest c) (.ok ()) { db with contests := db.contests ++ [row] }
  | contestReplaced {c : Contest} {row : ContestRow} (hrow : ContestRow.ofContest? c = some row)
      (hfound : db.hasContest c.id = true) :
      Effect db (.replaceContest c) (.ok true)
        { db with contests := db.contests.map fun r => if r.id = c.id then row else r }
  | noContestReplaced {c : Contest} (habsent : db.hasContest c.id = false) :
      Effect db (.replaceContest c) (.ok false) db
  | contestRemoved {id : Uuid} (hfound : db.hasContest id = true)
      (hempty : db.problems.any (·.contestId == id) = false) :
      Effect db (.removeContest id) (.ok true)
        { db.dropSubmissions (·.contestId == id) with
          contests := db.contests.filter (·.id != id)
          registrations := db.registrations.filter (·.contestId != id)
          rankings := db.rankings.filter (·.contestId != id) }
  | contestInUse {id : Uuid} (hfound : db.hasContest id = true)
      (hused : db.problems.any (·.contestId == id) = true) :
      Effect db (.removeContest id) (.error (.contestHasProblems id)) db
  | noContestRemoved {id : Uuid} (habsent : db.hasContest id = false) :
      Effect db (.removeContest id) (.ok false) db
  | registrationAdded {contestId userId : Uuid} {registeredAt : Instant} {stamp : Stamp}
      (hstamp : registeredAt.stamp? = some stamp)
      (hnew : db.isRegistered contestId userId = false)
      (hcontest : db.hasContest contestId = true) (huser : db.hasUser userId = true) :
      Effect db (.insertRegistration contestId userId registeredAt) (.ok true)
        { db with registrations := db.registrations ++ [⟨contestId, userId, stamp⟩] }
  | registrationKnown {contestId userId : Uuid} {registeredAt : Instant}
      (hknown : db.isRegistered contestId userId = true) :
      Effect db (.insertRegistration contestId userId registeredAt) (.ok false) db
  | registrationRemoved {contestId userId : Uuid}
      (hfound : db.isRegistered contestId userId = true) :
      Effect db (.removeRegistration contestId userId) (.ok true)
        { db with registrations := db.registrations.filter fun r =>
            !(r.contestId == contestId && r.userId == userId) }
  | noRegistrationRemoved {contestId userId : Uuid}
      (habsent : db.isRegistered contestId userId = false) :
      Effect db (.removeRegistration contestId userId) (.ok false) db
  | problemAdded {p : Problem} (hnew : db.hasProblem p.id = false)
      (hcontest : db.hasContest p.contestId = true) :
      Effect db (.insertProblem p) (.ok ()) { db with problems := db.problems ++ [p] }
  | problemReplaced {p : Problem}
      (hfound : db.problems.any (isProblemOf p.contestId p.id) = true) :
      Effect db (.replaceProblem p) (.ok true)
        { db with problems := db.problems.map fun r =>
            if isProblemOf p.contestId p.id r then { p with contentKey := r.contentKey } else r }
  | noProblemReplaced {p : Problem}
      (habsent : db.problems.any (isProblemOf p.contestId p.id) = false) :
      Effect db (.replaceProblem p) (.ok false) db
  | problemRemoved {contestId id : Uuid}
      (hfound : db.problems.any (isProblemOf contestId id) = true) :
      Effect db (.removeProblem contestId id) (.ok true)
        { db.dropSubmissions (·.problemId == id) with
          problems := db.problems.filter fun p => !isProblemOf contestId id p }
  | noProblemRemoved {contestId id : Uuid}
      (habsent : db.problems.any (isProblemOf contestId id) = false) :
      Effect db (.removeProblem contestId id) (.ok false) db
  | submissionAdded {s : Submission} {row : SubmissionRow}
      (hrow : SubmissionRow.ofSubmission? s = some row) (hnew : db.hasSubmission s.id = false) :
      Effect db (.insertSubmission s) (.ok ()) { db with submissions := db.submissions ++ [row] }
  | entryPatched {contestId userId : Uuid} {patch : LeaderboardPatch}
      (hfound : db.rankings.any (isEntryOf contestId userId) = true) :
      Effect db (.patchRanking contestId userId patch) (.ok true)
        { db with rankings := db.rankings.map fun r =>
            if isEntryOf contestId userId r then { r with flags := r.flags.apply patch } else r }
  | noEntryPatched {contestId userId : Uuid} {patch : LeaderboardPatch}
      (habsent : db.rankings.any (isEntryOf contestId userId) = false) :
      Effect db (.patchRanking contestId userId patch) (.ok false) db

theorem SubmissionRow.of_ofSubmission? {s : Submission} {row : SubmissionRow}
    (h : ofSubmission? s = some row) :
    row.id = s.id ∧ row.userId = s.userId ∧ row.status = s.state.name := by
  obtain ⟨_, -, h⟩ := Option.bind_eq_some_iff.mp h
  obtain ⟨createdAt, -, h⟩ := Option.bind_eq_some_iff.mp h
  cases h
  exact ⟨rfl, rfl, rfl⟩

/-- Every column of a row has its part of a contest. -/
structure ContestRow.Holds (row : ContestRow) (c : Contest) : Prop where
  id : row.id = c.id
  name : row.name = c.name
  description : row.description = c.description
  registrationStart : c.registrationStart.stamp? = some row.registrationStart
  registrationEnd : c.registrationEnd.stamp? = some row.registrationEnd
  start : c.start.stamp? = some row.start
  finish : c.finish.stamp? = some row.finish
  eligible : row.eligible = IntList.plain c.eligible
  /-- No text has a NUL. -/
  storable : (isStorable c.name && isStorable c.description) = true

theorem ContestRow.holds_of_ofContest? {c : Contest} {row : ContestRow}
    (h : ofContest? c = some row) : row.Holds c := by
  obtain ⟨_, htexts, h⟩ := Option.bind_eq_some_iff.mp h
  -- All four times have to fit into their columns.
  obtain ⟨registrationStart, hregistrationStart, h⟩ := Option.bind_eq_some_iff.mp h
  obtain ⟨registrationEnd, hregistrationEnd, h⟩ := Option.bind_eq_some_iff.mp h
  obtain ⟨start, hstart, h⟩ := Option.bind_eq_some_iff.mp h
  obtain ⟨finish, hfinish, h⟩ := Option.bind_eq_some_iff.mp h
  cases h
  exact ⟨rfl, rfl, rfl, hregistrationStart, hregistrationEnd, hstart, hfinish, rfl,
    (Option.ite_none_right_eq_some.mp htexts).1⟩

theorem ContestRow.id_of_ofContest? {c : Contest} {row : ContestRow}
    (h : ofContest? c = some row) : row.id = c.id :=
  (holds_of_ofContest? h).id

/-- A row that is put in the place of another one has its identifier. -/
theorem ContestRow.id_replaced {c : Contest} {row : ContestRow} (h : ofContest? c = some row)
    (r : ContestRow) : (if r.id = c.id then row else r).id = r.id := by
  split
  case isTrue hsame => rw [id_of_ofContest? h, hsame]
  case isFalse => rfl

/-! ## Rows -/

/-- Rows are found where they were if those that are put in their places pass the test alike. -/
theorem find?_map_of_eq {α : Type} {rows : List α} {p : α → Bool} {f : α → α}
    (h : ∀ r, p (f r) = p r) : (rows.map f).find? p = (rows.find? p).map f := by
  have hsame : p ∘ f = p := funext h
  rw [List.find?_map, hsame]

/-- Rows that are taken away for another reason than a test are not missed by the test. -/
theorem find?_filter_of_imp {α : Type} {rows : List α} {p keep : α → Bool}
    (h : ∀ r, p r = true → keep r = true) : (rows.filter keep).find? p = rows.find? p := by
  rw [List.find?_filter]
  refine congrArg (List.find? · rows) (funext fun r => ?_)
  cases hp : p r with
  | true => simp [h r hp]
  | false => simp

theorem any_filter_of_imp {α : Type} {rows : List α} {p keep : α → Bool}
    (h : ∀ r, p r = true → keep r = true) : (rows.filter keep).any p = rows.any p := by
  rw [← List.isSome_find?, find?_filter_of_imp h, List.isSome_find?]

/-! ## What was found -/

theorem hasContest_of_contest? {id : Uuid} {contest : Contest}
    (h : db.contest? id = some contest) : db.hasContest id = true := by
  obtain ⟨row, hrow, -⟩ := Option.map_eq_some_iff.mp h
  have hid := List.find?_some hrow
  exact List.any_eq_true.mpr ⟨row, List.mem_of_find?_eq_some hrow, hid⟩

theorem exists_contest? {id : Uuid} (h : db.hasContest id = true) :
    ∃ contest, db.contest? id = some contest := by
  rw [hasContest, ← List.isSome_find?] at h
  obtain ⟨row, hrow⟩ := Option.isSome_iff_exists.mp h
  exact ⟨row.contest, by rw [contest?, hrow, Option.map_some]⟩

theorem exists_profile? {userId : Uuid} (h : db.hasUser userId = true) :
    ∃ profile, db.profile? userId = some profile := by
  rw [hasUser, ← List.isSome_find?] at h
  exact Option.isSome_iff_exists.mp h

theorem id_of_profile? {userId : Uuid} {profile : UserProfile}
    (h : db.profile? userId = some profile) : profile.id = userId := by
  have hid := List.find?_some h
  exact beq_iff_eq.mp hid

theorem hasUser_of_profile? {userId : Uuid} {profile : UserProfile}
    (h : db.profile? userId = some profile) : db.hasUser userId = true := by
  have hid := List.find?_some h
  exact List.any_eq_true.mpr ⟨profile, List.mem_of_find?_eq_some h, hid⟩

/-! ## The effects are complete -/

private theorem map_eq_self_of_any {α : Type} {rows : List α} {p : α → Bool} {f : α → α}
    (h : rows.any p = false) : (rows.map fun r => if p r then f r else r) = rows := by
  refine (List.map_congr_left fun r hr => ?_).trans (List.map_id rows)
  rw [if_neg (List.any_eq_false.mp h r hr)]
  rfl

private theorem effect_insertContest (c : Contest) :
    Effect db (.insertContest c) (db.changed (db.insertContest c)).1
      (db.changed (db.insertContest c)).2 := by
  unfold insertContest
  cases hrow : ContestRow.ofContest? c with
  | none => exact .refused _ rfl
  | some row =>
    dsimp only
    cases hnew : db.hasContest c.id with
    | true => exact .refused _ rfl
    | false => exact .contestAdded hrow hnew

private theorem effect_replaceContest (c : Contest) :
    Effect db (.replaceContest c) (db.changedWith (db.replaceContest c)).1
      (db.changedWith (db.replaceContest c)).2 := by
  unfold replaceContest
  cases hrow : ContestRow.ofContest? c with
  | none => exact .refused _ rfl
  | some row =>
    dsimp only [changedWith]
    cases hfound : db.hasContest c.id with
    | true => exact .contestReplaced hrow hfound
    | false =>
      have hsame : (db.contests.map fun r => if r.id = c.id then row else r) = db.contests := by
        have hmap := map_eq_self_of_any (f := fun _ => row) hfound
        simpa only [beq_iff_eq] using hmap
      rw [hsame]
      exact .noContestReplaced hfound

private theorem effect_removeContest (id : Uuid) :
    Effect db (.removeContest id) (db.changedWith (db.removeContest id)).1
      (db.changedWith (db.removeContest id)).2 := by
  unfold removeContest
  cases hfound : db.hasContest id with
  | false => exact .noContestRemoved hfound
  | true =>
    cases hempty : db.problems.any (·.contestId == id) with
    | true => exact .contestInUse hfound hempty
    | false => exact .contestRemoved hfound hempty

private theorem effect_insertRegistration (contestId userId : Uuid) (registeredAt : Instant) :
    Effect db (.insertRegistration contestId userId registeredAt)
      (db.changedWith (db.insertRegistration contestId userId registeredAt)).1
      (db.changedWith (db.insertRegistration contestId userId registeredAt)).2 := by
  unfold insertRegistration
  cases hstamp : registeredAt.stamp? with
  | none => exact .refused _ rfl
  | some stamp =>
    dsimp only
    -- A pair that is registered is known before the contest and the user are looked for.
    cases hknown : db.isRegistered contestId userId with
    | true => exact .registrationKnown hknown
    | false =>
      cases hcontest : db.hasContest contestId with
      | false => exact .refused _ rfl
      | true =>
        cases huser : db.hasUser userId with
        | false => exact .refused _ rfl
        | true => exact .registrationAdded hstamp hknown hcontest huser

private theorem effect_removeRegistration (contestId userId : Uuid) :
    Effect db (.removeRegistration contestId userId)
      (db.changedWith (.ok (db.removeRegistration contestId userId))).1
      (db.changedWith (.ok (db.removeRegistration contestId userId))).2 := by
  simp only [removeRegistration, changedWith]
  cases hfound : db.isRegistered contestId userId with
  | true => exact .registrationRemoved hfound
  | false =>
    have hsame : (db.registrations.filter fun r =>
        !(r.contestId == contestId && r.userId == userId)) = db.registrations := by
      refine List.filter_eq_self.mpr fun r hr => ?_
      rw [Bool.not_eq_true', ← Bool.not_eq_true]
      exact List.any_eq_false.mp hfound r hr
    rw [hsame]
    exact .noRegistrationRemoved hfound

private theorem effect_insertProblem (p : Problem) :
    Effect db (.insertProblem p) (db.changed (db.insertProblem p)).1
      (db.changed (db.insertProblem p)).2 := by
  unfold insertProblem
  cases isStorableProblem p with
  | false => exact .refused _ rfl
  | true =>
    cases hnew : db.hasProblem p.id with
    | true => exact .refused _ rfl
    | false =>
      cases hcontest : db.hasContest p.contestId with
      | false => exact .refused _ rfl
      | true => exact .problemAdded hnew hcontest

private theorem effect_replaceProblem (p : Problem) :
    Effect db (.replaceProblem p) (db.changedWith (db.replaceProblem p)).1
      (db.changedWith (db.replaceProblem p)).2 := by
  unfold replaceProblem
  cases isStorable p.name with
  | false => exact .refused _ rfl
  | true =>
    simp only [Bool.not_true, Bool.false_eq_true, if_false, changedWith]
    cases hfound : db.problems.any (isProblemOf p.contestId p.id) with
    | true => exact .problemReplaced hfound
    | false =>
      -- To replace the rows that pass a test is to do nothing if none does.
      rw [map_eq_self_of_any hfound]
      exact .noProblemReplaced hfound

private theorem effect_removeProblem (contestId id : Uuid) :
    Effect db (.removeProblem contestId id)
      (db.changedWith (.ok (db.removeProblem contestId id))).1
      (db.changedWith (.ok (db.removeProblem contestId id))).2 := by
  unfold removeProblem
  cases hfound : db.problems.any (isProblemOf contestId id) with
  | true => exact .problemRemoved hfound
  | false => exact .noProblemRemoved hfound

private theorem effect_insertSubmission (s : Submission) :
    Effect db (.insertSubmission s) (db.changed (db.insertSubmission s)).1
      (db.changed (db.insertSubmission s)).2 := by
  unfold insertSubmission
  cases hrow : SubmissionRow.ofSubmission? s with
  | none => exact .refused _ rfl
  | some row =>
    dsimp only
    cases hnew : db.hasSubmission s.id with
    | true => exact .refused _ rfl
    | false =>
      cases db.hasUser s.userId && db.hasContest s.contestId && db.hasProblem s.problemId with
      | true => exact .submissionAdded hrow hnew
      | false => exact .refused _ rfl

private theorem effect_patchRanking (contestId userId : Uuid) (patch : LeaderboardPatch) :
    Effect db (.patchRanking contestId userId patch)
      (db.changedWith (.ok (db.patchRanking contestId userId patch))).1
      (db.changedWith (.ok (db.patchRanking contestId userId patch))).2 := by
  simp only [patchRanking, changedWith]
  cases hfound : db.rankings.any (isEntryOf contestId userId) with
  | true => exact .entryPatched hfound
  | false =>
    rw [map_eq_self_of_any hfound]
    exact .noEntryPatched hfound

/-- The answer of the database to a call and what it does to the tables are an effect. -/
theorem effect_answer (db : Database) (call : Call) :
    Effect db call (db.answer call).1 (db.answer call).2 := by
  cases call with
  | insertContest c => exact effect_insertContest c
  | replaceContest c => exact effect_replaceContest c
  | removeContest id => exact effect_removeContest id
  | insertRegistration contestId userId registeredAt =>
    exact effect_insertRegistration contestId userId registeredAt
  | removeRegistration contestId userId => exact effect_removeRegistration contestId userId
  | insertProblem p => exact effect_insertProblem p
  | replaceProblem p => exact effect_replaceProblem p
  | removeProblem contestId id => exact effect_removeProblem contestId id
  | insertSubmission s => exact effect_insertSubmission s
  | patchRanking contestId userId patch => exact effect_patchRanking contestId userId patch
  | _ => exact .read rfl _

/-! ## What calls leave alone -/

namespace Effect

variable {call : Call} {answer : call.Answer}

theorem of_reads (h : Effect db call answer db') (hreads : call.reads = true) : db' = db := by
  cases h with
  | refused | read => rfl
  | _ => exact nomatch hreads

theorem of_error {fault : Fault} (h : Effect db call (.error fault) db') : db' = db := by
  generalize hanswer : (Except.error fault : call.Answer) = answer at h
  cases h with
  | refused | read | contestInUse => rfl
  | _ => exact nomatch hanswer

theorem of_denies (h : Effect db call answer db') (hdenies : call.denies answer = true) :
    db' = db := by
  cases h with
  | refused | read | noContestReplaced | noContestRemoved | registrationKnown
  | noRegistrationRemoved | noProblemReplaced | noProblemRemoved | noEntryPatched => rfl
  | _ => exact nomatch hdenies

/-- Users and administrators are made elsewhere. -/
theorem users_eq (h : Effect db call answer db') : db'.users = db.users := by
  cases h <;> rfl

theorem admins_eq (h : Effect db call answer db') : db'.admins = db.admins := by
  cases h <;> rfl

theorem profile?_eq (h : Effect db call answer db') (userId : Uuid) :
    db'.profile? userId = db.profile? userId := by
  unfold profile?
  rw [h.users_eq]

/-- Only the contest that a call names is replaced or removed. -/
theorem contest?_eq (h : Effect db call answer db') {id : Uuid} {contest : Contest}
    (hcontest : db.contest? id = some contest)
    (hreplace : ∀ c, call = .replaceContest c → c.id ≠ id) (hremove : call ≠ .removeContest id) :
    db'.contest? id = some contest := by
  obtain ⟨row, hfind, hrow⟩ := Option.map_eq_some_iff.mp hcontest
  cases h with
  | contestAdded _ _ =>
    unfold contest?
    rw [List.find?_append, hfind, Option.some_or, Option.map_some, hrow]
  | @contestReplaced c new hnew _ =>
    have hother : c.id ≠ id := hreplace c rfl
    -- A row that is replaced had another identifier, and it still has.
    have hsame : ∀ r : ContestRow, ((if r.id = c.id then new else r).id == id) = (r.id == id) := by
      intro r
      rw [ContestRow.id_replaced hnew]
    -- So the row that is found is not one of those.
    have hrowid : row.id = id := by simpa using List.find?_some hfind
    unfold contest?
    rw [find?_map_of_eq hsame, hfind, Option.map_some, if_neg (hrowid ▸ hother.symm),
      Option.map_some, hrow]
  | @contestRemoved other _ _ =>
    have hother : id ≠ other := fun heq => hremove (congrArg Call.removeContest heq.symm)
    unfold contest?
    rw [find?_filter_of_imp fun r hr => ?_, hfind, Option.map_some, hrow]
    rw [beq_iff_eq.mp hr]
    exact bne_iff_ne.mpr hother
  | _ => exact hcontest

/-! Three calls change whether a user is registered for a contest. -/

theorem kind_of_insertRegistration {contestId userId : Uuid} {registeredAt : Instant}
    {fault : Fault}
    (h : Effect db (.insertRegistration contestId userId registeredAt) (.error fault) db') :
    fault.kind = .infrastructure := by
  -- That the row is refused is a failure of the database, whatever the reason.
  cases h with
  | read hreads => exact nomatch hreads
  | refused _ hkind => exact hkind

/-- That the row of a problem is refused is a failure of the database, too. -/
theorem kind_of_insertProblem {p : Problem} {fault : Fault}
    (h : Effect db (.insertProblem p) (.error fault) db') : fault.kind = .infrastructure := by
  cases h with
  | read hreads => exact nomatch hreads
  | refused _ hkind => exact hkind

theorem isRegistered_insert {contestId userId : Uuid} {registeredAt : Instant} {added : Bool}
    (h : Effect db (.insertRegistration contestId userId registeredAt) (.ok added) db') :
    db.isRegistered contestId userId = !added ∧ db'.isRegistered contestId userId = true := by
  cases h with
  | read hreads => exact nomatch hreads
  | registrationAdded _ hnew =>
    refine ⟨hnew, ?_⟩
    simp [isRegistered]
  | registrationKnown hknown => exact ⟨hknown, hknown⟩

theorem isRegistered_remove {contestId userId : Uuid} {removed : Bool}
    (h : Effect db (.removeRegistration contestId userId) (.ok removed) db') :
    db.isRegistered contestId userId = removed ∧ db'.isRegistered contestId userId = false := by
  cases h with
  | read hreads => exact nomatch hreads
  | registrationRemoved hfound =>
    refine ⟨hfound, List.any_eq_false.mpr fun r hr => ?_⟩
    have hkeep := (List.mem_filter.mp hr).2
    rwa [Bool.not_eq_true', ← Bool.not_eq_true] at hkeep
  | noRegistrationRemoved habsent => exact ⟨habsent, habsent⟩

theorem isRegistered_other {contestId userId : Uuid} (h : Effect db call answer db')
    (hinsert : ∀ registeredAt, call ≠ .insertRegistration contestId userId registeredAt)
    (hremove : call ≠ .removeRegistration contestId userId)
    (hcontest : call ≠ .removeContest contestId) :
    db'.isRegistered contestId userId = db.isRegistered contestId userId := by
  cases h with
  | @registrationAdded c u registeredAt stamp _ _ _ _ =>
    -- The row that is added is one of another pair.
    have hother : ¬ (c = contestId ∧ u = userId) := by
      rintro ⟨rfl, rfl⟩
      exact hinsert registeredAt rfl
    have hrow : (c == contestId && u == userId) = false := by simpa using hother
    simp only [isRegistered, List.any_append, List.any_cons, List.any_nil, hrow, Bool.or_false]
  | @registrationRemoved c u _ =>
    have hother : (contestId == c && userId == u) = false := by
      refine Bool.eq_false_iff.mpr fun heq => ?_
      simp only [Bool.and_eq_true, beq_iff_eq] at heq
      exact hremove (heq.1 ▸ heq.2 ▸ rfl)
    refine any_filter_of_imp fun r hr => ?_
    simp only [Bool.and_eq_true, beq_iff_eq] at hr
    rw [hr.1, hr.2, hother, Bool.not_false]
  | @contestRemoved c _ _ =>
    have hother : c ≠ contestId := fun heq => hcontest (congrArg Call.removeContest heq)
    refine any_filter_of_imp fun r hr => ?_
    simp only [Bool.and_eq_true, beq_iff_eq] at hr
    simpa [hr.1] using hother.symm
  | _ => rfl

theorem insertSubmission_ok {s : Submission} (h : Effect db (.insertSubmission s) (.ok ()) db') :
    ∃ row, SubmissionRow.ofSubmission? s = some row ∧ db.hasSubmission row.id = false ∧
      db' = { db with submissions := db.submissions ++ [row] } := by
  cases h with
  | read hreads => exact nomatch hreads
  | @submissionAdded _ row hrow hnew =>
    refine ⟨row, hrow, ?_, rfl⟩
    rw [(SubmissionRow.of_ofSubmission? hrow).1]
    exact hnew

end Effect

end ContestPlatform.Database
