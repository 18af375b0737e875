import ContestPlatform.Contest.Json
import ContestPlatform.Fault.Json
import ContestPlatform.Leaderboard.Json
import ContestPlatform.Input.Rules
import ContestPlatform.Submission.Json

/-!
# Request bodies

The bodies that requests carry: how each is read and what it has to satisfy. A body that satisfies
its rules is the input of an operation.
-/

namespace ContestPlatform.Input

open Json (Reader Refusal)

/-- The terms of a contest as a request gives them: without a description it is empty. -/
def contestTerms : Reader ContestTerms :=
  (ContestTerms.fields (.defaulted "description" Reader.text "")).read.map ContestTerms.ofValues

/-- A kind of body: its reader, its rules and its JSON form. -/
structure Form (α : Type) where
  read : Reader α
  /-- What is wrong with a body; absent for a body without rules. -/
  complaints? : Option (α → List FieldComplaints)
  toJson : α → Json

/-- The body that creates or replaces a contest. -/
def contest : Form ContestTerms :=
  ⟨contestTerms, some ContestTerms.complaints, ContestTerms.toJson⟩

/-- The body that creates a problem. -/
def newProblem : Form NewProblem :=
  ⟨NewProblem.read, some NewProblem.complaints, NewProblem.toJson⟩

/-- The body that changes a problem. -/
def problemChange : Form ProblemChange :=
  ⟨ProblemChange.read, some ProblemChange.complaints, ProblemChange.toJson⟩

/-- The body that hands in a submission. -/
def submission : Form NewSubmission :=
  ⟨NewSubmission.read, some NewSubmission.complaints, NewSubmission.toJson⟩

/-- The body that patches a leaderboard entry. -/
def leaderboard : Form LeaderboardPatch :=
  ⟨LeaderboardPatch.read, none, LeaderboardPatch.toJson⟩

namespace Form

variable {α : Type}

/-- What is wrong with a body. -/
def complaints (form : Form α) (a : α) : List FieldComplaints :=
  match form.complaints? with
  | none => []
  | some check => check a

/-- Accept a body that satisfies its rules. -/
def check (form : Form α) (a : α) : Except Fault Unit :=
  match form.complaints a with
  | [] => .ok ()
  | complaints => .error (.validation (.fields complaints))

/-- The report on whether a body satisfies its rules. -/
def report (form : Form α) (a : α) : Json :=
  match form.complaints? with
  | none => .null
  | some check =>
    match check a with
    | [] => .text "valid"
    | complaints => .object
      [("fields", .object (complaints.map fun f => (f.field, f.toJson))),
       ("as_error", (Fault.validation (.fields complaints)).toJson)]

end Form

end ContestPlatform.Input
