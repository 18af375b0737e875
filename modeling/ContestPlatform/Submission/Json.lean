import ContestPlatform.Problem.Json
import ContestPlatform.Submission.Basic

/-!
# Submissions as JSON

The JSON forms of submissions. An absent language is left out; an absent run time or memory is
written as null.
-/

namespace ContestPlatform

open Json (Reader Fields FieldReader Values)

/-- Read a state. -/
def SubmissionState.read : Reader SubmissionState :=
  Reader.word table

/-- The JSON form of a state. -/
def SubmissionState.toJson (s : SubmissionState) : Json :=
  .text s.name

namespace Submission

/-- The members that a submission is written as. -/
def members (s : Submission) : List (String × Json) :=
  [("id", Json.uuid s.id),
   ("user_id", Json.uuid s.userId),
   ("contest_id", Json.uuid s.contestId),
   ("problem_id", Json.uuid s.problemId),
   ("type", s.kind.toJson)] ++
  Json.optional "language" .text s.language ++
  [("choices", Json.int32List s.choices),
   ("status", s.state.toJson),
   ("created_at", Json.instant s.createdAt),
   ("runtime", Json.orNull Json.int64 s.runtime),
   ("memory", Json.orNull Json.int64 s.memory)]

/-- The JSON form of a submission. -/
def toJson (s : Submission) : Json :=
  .object s.members

end Submission

/-- The JSON form of what is polled for. -/
def SubmissionStatus.toJson (s : SubmissionStatus) : Json :=
  .object [("id", Json.uuid s.id), ("user_id", Json.uuid s.userId), ("status", s.state.toJson)]

/-- The JSON form of a result. -/
def TestResult.toJson (r : TestResult) : Json :=
  .object
    [("id", Json.uuid r.id),
     ("submission_id", Json.uuid r.submissionId),
     ("test_case_id", Json.uuid r.testCaseId),
     ("status", .text r.status),
     ("runtime", Json.orNull Json.int64 r.runtime),
     ("memory", Json.orNull Json.int64 r.memory),
     ("created_at", Json.instant r.createdAt)]

/-- The JSON form of details: the members of the submission, the code if there is one, and the
    results. -/
def SubmissionDetails.toJson (d : SubmissionDetails) : Json :=
  .object (d.submission.members ++ Json.optional "code" .text d.code ++
    [("test_case_results", .list (d.results.map TestResult.toJson))])

namespace NewSubmission

/-- The JSON form of what is handed in; what is absent is null. -/
def toJson (s : NewSubmission) : Json :=
  .object
    [("contest_id", Json.uuid s.contestId),
     ("problem_id", Json.uuid s.problemId),
     ("type", s.kind.toJson),
     ("language", Json.orNull .text s.language),
     ("code", Json.orNull .text s.code),
     ("choices", Json.int32List s.choices)]

/-- The fields of what is handed in. -/
def fields : Fields [Uuid, Uuid, ProblemKind, Option String, Option String, List Int32] :=
  .cons (.required "contest_id" Reader.uuid) <|
  .cons (.required "problem_id" Reader.uuid) <|
  .cons (.required "type" ProblemKind.read) <|
  .cons (.optional "language" Reader.text) <|
  .cons (.optional "code" Reader.text) <|
  .cons (.defaulted "choices" Reader.int32List []) .nil

/-- Read what is handed in. -/
def read : Reader NewSubmission :=
  fields.read.map fun (contestId, problemId, kind, language, code, choices, ()) =>
    ⟨contestId, problemId, kind, language, code, choices⟩

end NewSubmission

end ContestPlatform
