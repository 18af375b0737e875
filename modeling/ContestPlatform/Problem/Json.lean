import ContestPlatform.Json.Reader
import ContestPlatform.Json.Writer
import ContestPlatform.Problem.Basic

/-!
# Problems as JSON

The JSON forms of problems, of what is said to add or change one, and of what is shown of one.
-/

namespace ContestPlatform

open Json (Reader Fields FieldReader Values)

/-- Read a kind. -/
def ProblemKind.read : Reader ProblemKind :=
  Reader.word table

/-- The JSON form of a kind. -/
def ProblemKind.toJson (k : ProblemKind) : Json :=
  .text k.name

namespace Problem

/-- The JSON form of a problem. -/
def toJson (p : Problem) : Json :=
  .object
    [("id", Json.uuid p.id),
     ("contest_id", Json.uuid p.contestId),
     ("name", .text p.name),
     ("description", .text p.contentKey),
     ("score", Json.int32 p.score),
     ("type", p.kind.toJson),
     ("has_multiple_answers", .bool p.hasMultipleAnswers),
     ("answer", Json.int32List p.answer)]

/-- The fields of a problem. -/
def fields : Fields [Uuid, Uuid, String, String, Int32, ProblemKind, Bool, List Int32] :=
  .cons (.required "id" Reader.uuid) <|
  .cons (.required "contest_id" Reader.uuid) <|
  .cons (.required "name" Reader.text) <|
  .cons (.required "description" Reader.text) <|
  .cons (.required "score" Reader.int32) <|
  .cons (.required "type" ProblemKind.read) <|
  .cons (.required "has_multiple_answers" Reader.bool) <|
  .cons (.required "answer" Reader.int32List) .nil

/-- Read a problem. -/
def read : Reader Problem :=
  fields.read.map fun (id, contestId, name, contentKey, score, kind, multiple, answer, ()) =>
    ⟨id, contestId, name, contentKey, score, kind, multiple, answer⟩

end Problem

namespace NewProblem

/-- The JSON form of what is said of a new problem. -/
def toJson (p : NewProblem) : Json :=
  .object
    [("name", .text p.name),
     ("description", .text p.description),
     ("score", Json.int32 p.score),
     ("type", p.kind.toJson),
     ("answer", Json.int32List p.answer)]

/-- The fields of a new problem. -/
def fields : Fields [String, String, Int32, ProblemKind, List Int32] :=
  .cons (.required "name" Reader.text) <|
  .cons (.required "description" Reader.text) <|
  .cons (.required "score" Reader.int32) <|
  .cons (.required "type" ProblemKind.read) <|
  .cons (.defaulted "answer" Reader.int32List []) .nil

/-- Read what is said of a new problem. -/
def read : Reader NewProblem :=
  fields.read.map fun (name, description, score, kind, answer, ()) =>
    ⟨name, description, score, kind, answer⟩

end NewProblem

namespace ProblemChange

/-- The JSON form of a change; what is absent is null. -/
def toJson (c : ProblemChange) : Json :=
  .object
    [("name", Json.orNull .text c.name),
     ("description", Json.orNull .text c.description),
     ("score", Json.orNull Json.int32 c.score),
     ("type", Json.orNull ProblemKind.toJson c.kind),
     ("answer", Json.orNull Json.int32List c.answer)]

/-- The fields of a change. -/
def fields : Fields [Option String, Option String, Option Int32, Option ProblemKind,
    Option (List Int32)] :=
  .cons (.optional "name" Reader.text) <|
  .cons (.optional "description" Reader.text) <|
  .cons (.optional "score" Reader.int32) <|
  .cons (.optional "type" ProblemKind.read) <|
  .cons (.optional "answer" Reader.int32List) .nil

/-- Read a change. -/
def read : Reader ProblemChange :=
  fields.read.map fun (name, description, score, kind, answer, ()) =>
    ⟨name, description, score, kind, answer⟩

end ProblemChange

/-- The JSON form of a line of a list. -/
def ProblemOverview.toJson (p : ProblemOverview) : Json :=
  .object
    [("id", Json.uuid p.id),
     ("name", .text p.name),
     ("score", Json.int32 p.score),
     ("type", p.kind.toJson)]

/-- The JSON form of a statement. -/
def ProblemStatement.toJson (p : ProblemStatement) : Json :=
  .object
    [("problem_id", Json.uuid p.problemId),
     ("contest_id", Json.uuid p.contestId),
     ("name", .text p.name),
     ("description", .text p.description),
     ("score", Json.int32 p.score),
     ("type", p.kind.toJson),
     ("has_multiple_answers", .bool p.hasMultipleAnswers)]

namespace ProblemDocument

/-- The JSON form of a document. -/
def toJson (d : ProblemDocument) : Json :=
  .object [("description", .text d.description)]

/-- Read a document. -/
def read : Reader ProblemDocument :=
  (Fields.cons (.required "description" Reader.text) .nil).read.map
    fun (description, ()) => ⟨description⟩

/-- The text that is stored for a document. -/
def print (d : ProblemDocument) : String :=
  d.toJson.print

/-- The document that a stored text stands for. -/
def ofText? (s : String) : Option ProblemDocument :=
  (read.ofText s).toOption

end ProblemDocument

end ContestPlatform
