import ContestPlatform.Proofs.ProblemCalls

/-!
# The calls of the other operations that write

What the operations on contests, registrations, submissions and leaderboards that write ask of the
stores, call by call, and what each answer leads to. A service is written out as a program by saying
what comes after it (`Service.into`): the parts of its text are pushed into one another until only
calls are left.
-/

namespace ContestPlatform

/-! ## Services as programs -/

namespace Service

variable {α β : Type} (next : α → StoreProgram (Except Fault Json))

/-- The program of a service of which the value leads to another program, and of which a fault is
    the end. -/
def into (x : Service α) : StoreProgram (Except Fault Json) :=
  x.run.bind fun
    | .error fault => failed fault
    | .ok a => next a

theorem run_map (write : α → Json) (x : Service α) :
    (write <$> x).run = x.into fun a => succeeded (write a) := by
  refine congrArg x.run.bind (funext fun result => ?_)
  cases result <;> rfl

theorem into_bind (x : Service β) (f : β → Service α) :
    (x >>= f).into next = x.into fun a => (f a).into next := by
  refine (Program.bind_assoc _ _ _).trans (congrArg x.run.bind (funext fun result => ?_))
  cases result <;> rfl

theorem into_pure (a : α) : (pure a : Service α).into next = next a := rfl

theorem into_throw (fault : Fault) : (throw fault : Service α).into next = failed fault := rfl

theorem into_ite (c : Prop) [Decidable c] (x y : Service α) :
    (if c then x else y).into next = if c then x.into next else y.into next := by
  split <;> rfl

theorem into_found (fault : Fault) (a? : Option α) :
    (found fault a?).into next =
      match a? with
      | none => failed fault
      | some a => next a := by
  cases a? <;> rfl

theorem into_now (next : Instant → StoreProgram (Except Fault Json)) :
    now.into next = .ask .now next := rfl

theorem into_freshId (next : Uuid → StoreProgram (Except Fault Json)) :
    freshId.into next = .ask .freshId next := rfl

end Service

open Service

/-! ## Contests -/

/-- Terms whose windows are out of order are refused before any call. -/
theorem Contest.into_checkWindows (terms : ContestTerms)
    (next : Unit → StoreProgram (Except Fault Json)) :
    (checkWindows terms).into next =
      match terms.windowFlaw? with
      | some flaw => failed (.validation flaw.objection)
      | none => next () := by
  unfold checkWindows
  cases terms.windowFlaw? <;> rfl

theorem Contest.calls_create (terms : ContestTerms) :
    (Operation.createContest terms).run.run =
      match terms.windowFlaw? with
      | some flaw => failed (.validation flaw.objection)
      | none => .ask .freshId fun id =>
        .ask (.database (.insertContest (ofTerms id terms))) fun
          | .error fault => failed fault
          | .ok () => succeeded (ofTerms id terms).toJson := by
  simp only [Operation.run, run_map, create, into_bind, into_checkWindows, into_freshId,
    into_pure]
  cases terms.windowFlaw? with
  | some flaw => rfl
  | none =>
    refine Program.ask_congr fun id => Program.ask_congr fun inserted => ?_
    rcases inserted with fault | _ <;> rfl

theorem Contest.calls_update (id : Uuid) (terms : ContestTerms) :
    (Operation.updateContest id terms).run.run =
      match terms.windowFlaw? with
      | some flaw => failed (.validation flaw.objection)
      | none => .ask (.database (.replaceContest (ofTerms id terms))) fun
        | .error fault => failed fault
        | .ok false => failed (missing id)
        | .ok true => succeeded (ofTerms id terms).toJson := by
  simp only [Operation.run, run_map, update, into_bind, into_checkWindows, into_ite, into_pure,
    into_throw]
  cases terms.windowFlaw? with
  | some flaw => rfl
  | none =>
    refine Program.ask_congr fun replaced => ?_
    rcases replaced with fault | (_ | _) <;> rfl

/-! ## Registrations -/

namespace Registration

/-- The calls of an operation that goes on only while the registration window is open. -/
def openCalls (contestId : Uuid) (next : Contest → StoreProgram (Except Fault Json)) :
    StoreProgram (Except Fault Json) :=
  .ask (.database (.findContest contestId)) fun
    | .error fault => failed fault
    | .ok none => failed (Contest.missing contestId)
    | .ok (some contest) => .ask .now fun now =>
      if contest.registrationAt now = .open then next contest
      else failed (.registrationClosed contestId)

theorem into_openContest (contestId : Uuid) (next : Contest → StoreProgram (Except Fault Json)) :
    (openContest contestId).into next = openCalls contestId next := by
  simp only [openContest, Contest.find, into_bind, into_found, into_now, into_ite,
    into_pure, into_throw, openCalls]
  refine Program.ask_congr fun found => ?_
  rcases found with fault | (_ | contest) <;> rfl

/-- The contest and the profile are read before the only call that writes. -/
theorem calls_register (contestId userId : Uuid) :
    (Operation.register contestId userId).run.run =
      openCalls contestId fun contest =>
        .ask (.database (.findProfile userId)) fun
          | .error fault => failed fault
          | .ok none => failed (.notFound .user userId.text)
          | .ok (some profile) =>
            if contest.isEligible profile.currentYear then
              .ask .now fun registeredAt =>
                .ask (.database (.insertRegistration contestId userId registeredAt)) fun
                  | .error fault => failed fault
                  | .ok false => failed (.alreadyRegistered contestId userId)
                  | .ok true => succeeded (Operation.nothing ())
            else failed (.invalidYear contestId profile.currentYear) := by
  simp only [Operation.run, run_map, register, into_bind, into_openContest, into_found,
    into_ite, into_throw, into_now, into_pure]
  refine congrArg (openCalls contestId) (funext fun contest => Program.ask_congr fun known => ?_)
  rcases known with fault | (_ | profile)
  · rfl
  · rfl
  simp only [Program.done_bind]
  cases contest.isEligible profile.currentYear with
  | false => rfl
  | true =>
    refine Program.ask_congr fun registeredAt => Program.ask_congr fun added => ?_
    rcases added with fault | (_ | _) <;> rfl

theorem calls_unregister (contestId userId : Uuid) :
    (Operation.unregister contestId userId).run.run =
      openCalls contestId fun _ =>
        .ask (.database (.removeRegistration contestId userId)) fun
          | .error fault => failed fault
          | .ok false => failed (.notRegistered contestId userId)
          | .ok true => succeeded (Operation.nothing ()) := by
  simp only [Operation.run, run_map, unregister, into_bind, into_openContest, into_ite,
    into_throw, into_pure]
  refine congrArg (openCalls contestId) (funext fun contest => Program.ask_congr fun removed => ?_)
  rcases removed with fault | (_ | _) <;> rfl

end Registration

/-! ## Submissions -/

namespace Submission

/-- The calls that record a submission, and then its code if it has any. -/
def recordCalls (userId : Uuid) (new : NewSubmission) (code : Option String) :
    StoreProgram (Except Fault Json) :=
  .ask .freshId fun id => .ask .now fun now =>
    .ask (.database (.insertSubmission (ofNew id userId now new))) fun
      | .error fault => failed fault
      | .ok () =>
        match code with
        | none => succeeded (ofNew id userId now new).toJson
        | some body => .ask (.content (.put (codeKey id) body .createOnly)) fun
          | .error fault => failed (.content fault)
          | .ok () => succeeded (ofNew id userId now new).toJson

/-- The calls that look for the problem of a submission. -/
def problemCalls (userId : Uuid) (new : NewSubmission) (code : Option String) :
    StoreProgram (Except Fault Json) :=
  .ask (.database (.findProblem new.contestId new.problemId)) fun
    | .error fault => failed fault
    | .ok none => failed (.notFound .problem new.problemId.text)
    | .ok (some problem) =>
      if problem.kind = new.kind then recordCalls userId new code
      else failed (.validation (.kindMismatch problem.kind))

/-- That code is missing is found out before any call, and only code is stored. -/
theorem calls_create (userId : Uuid) (new : NewSubmission) :
    (Operation.createSubmission userId new).run.run =
      match new.kind, new.code with
      | .mcq, _ => problemCalls userId new none
      | .code, some body => problemCalls userId new (some body)
      | .code, none => failed (.validation .codeMissing) := by
  have hcode : ∀ next : Option String → StoreProgram (Except Fault Json),
      (requiredCode new).into next =
        match new.kind, new.code with
        | .mcq, _ => next none
        | .code, some body => next (some body)
        | .code, none => failed (.validation .codeMissing) := by
    intro next
    unfold requiredCode
    cases new.kind with
    | mcq => rfl
    | code => cases new.code <;> rfl
  rw [Operation.run, run_map, create, into_bind]
  -- With the code that is stored, if any, the rest is the same.
  refine (congrArg (into · (requiredCode new)) (funext fun code => ?_)).trans
    (hcode (problemCalls userId new))
  simp only [into_bind, into_found, into_ite, into_throw, into_freshId, into_now]
  refine Program.ask_congr fun known => ?_
  rcases known with fault | (_ | problem)
  · rfl
  · rfl
  simp only [Program.done_bind]
  by_cases hkind : problem.kind = new.kind
  · rw [if_neg (not_not_intro hkind), if_pos hkind]
    refine Program.ask_congr fun id => Program.ask_congr fun now => ?_
    refine Program.ask_congr fun inserted => ?_
    rcases inserted with fault | _
    · rfl
    cases code with
    | none => rfl
    | some body =>
      refine Program.ask_congr fun stored => ?_
      rcases stored with fault | _ <;> rfl
  · rw [if_pos hkind, if_neg hkind]

end Submission

/-! ## Leaderboards -/

/-- An empty patch is refused before any call. -/
theorem Leaderboard.calls_update (contestId userId : Uuid) (patch : LeaderboardPatch) :
    (Operation.updateLeaderboard contestId userId patch).run.run =
      if patch.isEmpty then failed (.validation .nothingToUpdate)
      else .ask (.database (.patchRanking contestId userId patch)) fun
        | .error fault => failed fault
        | .ok false => failed (missing contestId userId)
        | .ok true => succeeded (Operation.nothing ()) := by
  simp only [Operation.run, run_map, update, into_bind, into_ite, into_throw, into_pure]
  cases patch.isEmpty with
  | true => rfl
  | false =>
    refine Program.ask_congr fun patched => ?_
    rcases patched with fault | (_ | _) <;> rfl

end ContestPlatform
