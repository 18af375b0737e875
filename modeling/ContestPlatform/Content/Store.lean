import ContestPlatform.Content.Key

/-!
# Content stores

A content store keeps texts under keys. It answers three calls; a call on a text that is not a key
is refused before anything is touched.
-/

namespace ContestPlatform

/-- Why a call of a content store failed. -/
inductive ContentFault where
  /-- Nothing is kept under the key. -/
  | notFound (key : String)
  /-- A put that may only create met content under the key. -/
  | alreadyExists (key : String)
  /-- The text is not a key. -/
  | invalidKey (key : String)
  /-- The bytes under the key are not UTF-8. -/
  | encoding (key : String)
  /-- An object service refused or failed a request. -/
  | backend (text : String)
  /-- The file system failed. -/
  | io (text : String)
deriving DecidableEq, Inhabited

/-- What a fault says. -/
def ContentFault.message : ContentFault → String
  | .notFound key => "content not found: " ++ key
  | .alreadyExists key => "content key already exists: " ++ key
  | .invalidKey key => "invalid content key: " ++ key
  | .encoding key => "content under " ++ key ++ " is not valid UTF-8"
  | .backend text => "object storage error: " ++ text
  | .io text => "storage IO error: " ++ text

namespace Content

/-- What a put does when there is content under its key. -/
inductive PutMode where
  /-- It fails. -/
  | createOnly
  /-- It replaces the content. -/
  | overwrite
deriving DecidableEq, Inhabited

/-- A call of a content store. -/
inductive Call where
  | put (key body : String) (mode : PutMode)
  | get (key : String)
  | delete (key : String)
deriving DecidableEq

namespace Call

/-- What is given back if the call succeeds. -/
@[reducible] def Result : Call → Type
  | .put .. => Unit
  | .get _ => String
  | .delete _ => Unit

/-- The answer to a call. -/
abbrev Answer (c : Call) : Type :=
  Except ContentFault c.Result

/-- The key of a call. -/
def key : Call → String
  | .put key .. => key
  | .get key => key
  | .delete key => key

end Call

end Content

/-- A store of texts under keys, by how it answers the calls. -/
class ContentStore (κ : Type) where
  /-- The answer to a call, and the store after it. -/
  answer : κ → (call : Content.Call) → call.Answer × κ

end ContestPlatform
