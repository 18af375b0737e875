import ContestPlatform.Uuid

/-!
# Problems

A problem belongs to a contest. Its row holds metadata and the key under which the content store
keeps its statement; the statement is a document with the text of the description.
-/

namespace ContestPlatform

/-- The two kinds of problems, and of submissions. -/
inductive ProblemKind where
  | mcq
  | code
deriving DecidableEq, Inhabited

namespace ProblemKind

/-- The kinds by their names. -/
def table : List (String × ProblemKind) :=
  [("mcq", .mcq), ("code", .code)]

/-- The name of a kind. -/
def name : ProblemKind → String
  | .mcq => "mcq"
  | .code => "code"

/-- The kind that a stored text names in any letter case, or the text in lower case. -/
def ofText (s : String) : Except String ProblemKind :=
  let lower := String.ofList (s.toList.map Char.toLower)
  match table.lookup lower with
  | some kind => .ok kind
  | none => .error lower

/-- What is said of a text that names no kind. -/
def unknown (lower : String) : String :=
  "unknown problem type: " ++ lower

end ProblemKind

/-- A problem as the database knows it. -/
structure Problem where
  id : Uuid
  contestId : Uuid
  name : String
  /-- The key of the statement in the content store. -/
  contentKey : String
  score : Int32
  kind : ProblemKind
  hasMultipleAnswers : Bool
  answer : List Int32
deriving DecidableEq, Inhabited

/-- What an administrator says of a new problem. -/
structure NewProblem where
  name : String
  description : String
  score : Int32
  kind : ProblemKind
  answer : List Int32
deriving DecidableEq, Inhabited

/-- A change of a problem: what is absent keeps its value. -/
structure ProblemChange where
  name : Option String
  description : Option String
  score : Option Int32
  kind : Option ProblemKind
  answer : Option (List Int32)
deriving DecidableEq, Inhabited

/-- A line of the list of problems. -/
structure ProblemOverview where
  id : Uuid
  name : String
  score : Int32
  kind : ProblemKind
deriving DecidableEq, Inhabited

/-- A problem with the text of its description, as participants see it. -/
structure ProblemStatement where
  problemId : Uuid
  contestId : Uuid
  name : String
  description : String
  score : Int32
  kind : ProblemKind
  hasMultipleAnswers : Bool
deriving DecidableEq, Inhabited

/-- The document that the content store keeps for a problem. -/
structure ProblemDocument where
  description : String
deriving DecidableEq, Inhabited

namespace Problem

/-- The key of the statement of a problem. -/
def keyOf (contestId problemId : Uuid) : String :=
  "problems/" ++ contestId.text ++ "/" ++ problemId.text ++ ".json"

/-- Only a multiple-choice problem with more than one right answer has multiple answers. -/
def multipleAnswers (kind : ProblemKind) (answer : List Int32) : Bool :=
  kind == .mcq && 1 < answer.length

/-- The problem that an administrator adds to a contest. -/
def ofNew (contestId id : Uuid) (new : NewProblem) : Problem where
  id := id
  contestId := contestId
  name := new.name
  contentKey := keyOf contestId id
  score := new.score
  kind := new.kind
  hasMultipleAnswers := multipleAnswers new.kind new.answer
  answer := new.answer

/-- The problem after a change. Its identity and the key of its statement stay. -/
def apply (p : Problem) (change : ProblemChange) : Problem :=
  let kind := change.kind.getD p.kind
  let answer := change.answer.getD p.answer
  { p with
    name := change.name.getD p.name
    score := change.score.getD p.score
    kind := kind
    answer := answer
    hasMultipleAnswers := multipleAnswers kind answer }

/-- The line of a problem in a list. -/
def overview (p : Problem) : ProblemOverview :=
  ⟨p.id, p.name, p.score, p.kind⟩

/-- The problem with the text of its description. -/
def statement (p : Problem) (description : String) : ProblemStatement :=
  ⟨p.id, p.contestId, p.name, description, p.score, p.kind, p.hasMultipleAnswers⟩

end Problem

end ContestPlatform
