import ContestPlatform.Content.FileTree
import ContestPlatform.Content.Store
import ContestPlatform.Uuid

/-!
# A content store in a tree of files

A key is the path of its file. A put first makes the folders around the file, then writes the whole
text to a staged file with a name of its own in `.tmp`, and then publishes the staged file in one
step: a put that may only create links it, which fails if anything stands there, and one that
overwrites moves it. So a reader finds a whole text or none.
-/

namespace ContestPlatform.Content.FileStore

/-- The folder of staged files. -/
def staging : String := ".tmp"

/-- What a failed call says. -/
def describe : FileFault → String
  | .missing => "no such file or folder"
  | .occupied => "there is something already"
  | .notFolder => "not a folder"
  | .isFolder => "is a folder"
  | .tooLong => "name too long"
  | .nul => "path contains a NUL"

/-- A failed call as a fault of the store. -/
def fault (f : FileFault) : ContentFault :=
  .io (describe f)

/-- Ask for one call. -/
def ask (call : FileCall) : FileProgram call.Answer :=
  Program.call call

/-- Make a folder after the folders around it; a folder that is there already is fine. The names
    stand innermost first. -/
def makeFolders : List String → FileProgram (Except FileFault Unit)
  | [] => pure (.ok ())
  | name :: outer => do
    let path := (name :: outer).reverse
    match ← ask (.makeFolder path) with
    | .ok () => return .ok ()
    | .error .missing =>
      match ← makeFolders outer with
      | .error f => return .error f
      | .ok () =>
        match ← ask (.makeFolder path) with
        | .ok () => return .ok ()
        | .error f => return if ← ask (.isFolder path) then .ok () else .error f
    | .error f => return if ← ask (.isFolder path) then .ok () else .error f

/-- Publish a staged file, and clean up after a failure. -/
def publish (staged target : Path) : PutMode → FileProgram (Except FileFault Unit)
  | .createOnly => do
    let linked ← ask (.link staged target)
    let _ ← ask (.remove staged)
    return linked
  | .overwrite => do
    match ← ask (.move staged target) with
    | .ok () => return .ok ()
    | .error f =>
      let _ ← ask (.remove staged)
      return .error f

/-- Put a text under a key. The second argument is the path of the staged file. -/
def put (key : String) (staged : Path) (body : String) (mode : PutMode) :
    FileProgram (Except ContentFault Unit) := do
  if !isKey key then return .error (.invalidKey key)
  let target := segments key
  match ← makeFolders target.dropLast.reverse with
  | .error f => return .error (fault f)
  | .ok () =>
    match ← ask (.write staged (Text.Utf8.encode body)) with
    | .error f =>
      let _ ← ask (.remove staged)
      return .error (fault f)
    | .ok () =>
      match ← publish staged target mode with
      | .ok () => return .ok ()
      | .error .occupied => return .error (.alreadyExists key)
      | .error f => return .error (fault f)

/-- Get the text under a key. -/
def get (key : String) : FileProgram (Except ContentFault String) := do
  if !isKey key then return .error (.invalidKey key)
  match ← ask (.read (segments key)) with
  | .error .missing => return .error (.notFound key)
  | .error f => return .error (fault f)
  | .ok bytes =>
    match Text.Utf8.decode? bytes with
    | some body => return .ok body
    | none => return .error (.encoding key)

/-- Delete what is under a key; that nothing is there is fine. -/
def delete (key : String) : FileProgram (Except ContentFault Unit) := do
  if !isKey key then return .error (.invalidKey key)
  match ← ask (.remove (segments key)) with
  | .ok () => return .ok ()
  | .error .missing => return .ok ()
  | .error f => return .error (fault f)

/-- The program that answers a call of the store. -/
def program (staged : Path) : (call : Call) → FileProgram call.Answer
  | .put key body mode => put key staged body mode
  | .get key => get key
  | .delete key => delete key

/-! ## A store with a tree of its own -/

/-- The tree of a store that was opened on an empty folder. -/
def empty (rootLength : Nat) : FileTree :=
  ⟨rootLength, [([staging], .folder)]⟩

/-- A path in the folder of staged files that is neither in use nor on the way to the target of the
    put. There are more candidates than paths to avoid, so the default is not needed. -/
def freshStaged (t : FileTree) (target : Path) : Path :=
  let candidates := (List.range (t.entries.length + 2)).map fun n =>
    [staging, (Uuid.ofNat n).text]
  (candidates.find? fun path => (t.node? path).isNone && path != target.take 2).getD [staging, ""]

/-- The files and folders of a store. The names of files in the folder of staged files do not
    matter. -/
def listing (t : FileTree) : List String :=
  (t.listing.map fun e =>
    match e with
    | (folder :: _ :: _, .file _) =>
      if folder = staging then staging ++ "/*" else FileTree.spell e
    | _ => FileTree.spell e).mergeSort fun a b => decide (a ≤ b)

/-- Answer a call on a tree that nothing else uses. -/
def answer (t : FileTree) (call : Call) : call.Answer × FileTree :=
  (program (freshStaged t (segments call.key)) call).run t

instance : ContentStore FileTree := ⟨answer⟩

end ContestPlatform.Content.FileStore
