import ContestPlatform.Service.Operation

/-!
# The calls of the operations on one problem

What creating, changing and deleting a problem and deleting a contest ask of the stores, call by
call, and what each answer leads to. The result of an operation is written as JSON in the end.
-/

namespace ContestPlatform

/-- The end of an operation that fails. -/
abbrev failed (fault : Fault) : StoreProgram (Except Fault Json) :=
  .done (.error fault)

/-- The end of an operation that succeeds. -/
abbrev succeeded (result : Json) : StoreProgram (Except Fault Json) :=
  .done (.ok result)

namespace Problem

/-- A problem is created by four calls: the document is written before the row. -/
theorem calls_create (contestId : Uuid) (new : NewProblem) :
    (Operation.createProblem contestId new).run.run =
      .ask (.database (.contestExists contestId)) fun
        | .error fault => failed fault
        | .ok false => failed (Contest.missing contestId)
        | .ok true => .ask .freshId fun id =>
          .ask (.content (.put (keyOf contestId id) (document new.description) .createOnly)) fun
            | .error fault => failed (.content fault)
            | .ok () => .ask (.database (.insertProblem (ofNew contestId id new))) fun
              | .error fault => failed fault
              | .ok () => succeeded (ofNew contestId id new).toJson := by
  refine Program.ask_congr fun exists_ => ?_
  rcases exists_ with fault | (_ | _)
  · rfl
  · rfl
  refine Program.ask_congr fun id => Program.ask_congr fun stored => ?_
  rcases stored with fault | _
  · rfl
  refine Program.ask_congr fun inserted => ?_
  rcases inserted with fault | _ <;> rfl

/-- The calls of a change once the document was written, if there is one: the row is replaced, and
    if it is gone the document that was written is removed again. -/
def replaceCalls (id : Uuid) (problem : Problem) (wrote : Bool) :
    StoreProgram (Except Fault Json) :=
  .ask (.database (.replaceProblem problem)) fun
    | .error fault => failed fault
    | .ok true => succeeded problem.toJson
    | .ok false =>
      if wrote then .ask (.content (.delete problem.contentKey)) fun _ => failed (missing id)
      else failed (missing id)

/-- A problem is changed by at most four calls: a new document is written before the row. -/
theorem calls_update (contestId id : Uuid) (change : ProblemChange) :
    (Operation.updateProblem contestId id change).run.run =
      .ask (.database (.findProblem contestId id)) fun
        | .error fault => failed fault
        | .ok none => failed (missing id)
        | .ok (some problem) =>
          match change.description with
          | some description =>
            .ask (.content (.put problem.contentKey (document description) .overwrite)) fun
              | .error fault => failed (.content fault)
              | .ok () => replaceCalls id (problem.apply change) true
          | none => replaceCalls id (problem.apply change) false := by
  refine Program.ask_congr fun found => ?_
  rcases found with fault | (_ | problem)
  · rfl
  · rfl
  obtain ⟨name, description, score, kind, answer⟩ := change
  -- Whether there is a new description decides which calls there are.
  cases description with
  | none =>
    refine Program.ask_congr fun replaced => ?_
    rcases replaced with fault | (_ | _) <;> rfl
  | some description =>
    refine Program.ask_congr fun stored => ?_
    rcases stored with fault | _
    · rfl
    refine Program.ask_congr fun replaced => ?_
    rcases replaced with fault | (_ | _)
    · rfl
    · refine Program.ask_congr fun gone => ?_
      rcases gone with fault | _ <;> rfl
    · rfl

/-- A problem is deleted by three calls: the row is removed before the document. -/
theorem calls_delete (contestId id : Uuid) :
    (Operation.deleteProblem contestId id).run.run =
      .ask (.database (.findProblem contestId id)) fun
        | .error fault => failed fault
        | .ok none => failed (missing id)
        | .ok (some problem) => .ask (.database (.removeProblem contestId id)) fun
          | .error fault => failed fault
          | .ok false => failed (missing id)
          | .ok true => .ask (.content (.delete problem.contentKey)) fun _ =>
            succeeded (Operation.nothing ()) := by
  refine Program.ask_congr fun found => ?_
  rcases found with fault | (_ | problem)
  · rfl
  · rfl
  refine Program.ask_congr fun removed => ?_
  rcases removed with fault | (_ | _)
  · rfl
  · rfl
  refine Program.ask_congr fun gone => ?_
  rcases gone with fault | _ <;> rfl

end Problem

/-- A contest is deleted by one call. -/
theorem Contest.calls_delete (id : Uuid) :
    (Operation.deleteContest id).run.run =
      .ask (.database (.removeContest id)) fun
        | .error fault => failed fault
        | .ok false => failed (missing id)
        | .ok true => succeeded (Operation.nothing ()) := by
  refine Program.ask_congr fun removed => ?_
  rcases removed with fault | (_ | _) <;> rfl

end ContestPlatform
