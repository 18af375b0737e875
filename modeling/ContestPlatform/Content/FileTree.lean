import ContestPlatform.Program
import ContestPlatform.Text.Utf8

/-!
# A tree of files

The folder that a store works in: files and folders under paths, and the primitive calls that the
operating system offers on them. Each call is one step; it succeeds as a whole or changes nothing.

A path is walked from the root. The walk stops at the first name that is too long, missing or not a
folder, and that decides the outcome of the call. A NUL anywhere in a path, or a path that is too
long as a whole, stops it before the first step.
-/

namespace ContestPlatform.Content

/-- The names on the way from the root to a file or folder. -/
abbrev Path : Type :=
  List String

/-- What stands under a path. -/
inductive Node where
  | file (bytes : List UInt8)
  | folder
deriving DecidableEq, Inhabited

/-- Why a call on a tree of files failed. -/
inductive FileFault where
  /-- Something on the path does not exist. -/
  | missing
  /-- There is something already. -/
  | occupied
  /-- A name on the way belongs to a file. -/
  | notFolder
  /-- A file was wanted, and there is a folder. -/
  | isFolder
  /-- A name or the path is too long. -/
  | tooLong
  /-- The path has a NUL. -/
  | nul
deriving DecidableEq, Inhabited

/-- A call on a tree of files. -/
inductive FileCall where
  /-- Make one folder; the one around it has to exist. -/
  | makeFolder (path : Path)
  /-- Ask whether a folder stands under a path. -/
  | isFolder (path : Path)
  /-- Write a file as a whole. -/
  | write (path : Path) (bytes : List UInt8)
  /-- Give a file a second path at which there is nothing yet. -/
  | link (source target : Path)
  /-- Move a file to another path, over a file that stands there. -/
  | move (source target : Path)
  /-- Remove a file. -/
  | remove (path : Path)
  /-- Read a file as a whole. -/
  | read (path : Path)
deriving DecidableEq

/-- The answer to a call. -/
@[reducible] def FileCall.Answer : FileCall → Type
  | .isFolder _ => Bool
  | .read _ => Except FileFault (List UInt8)
  | .makeFolder _ | .write .. | .link .. | .move .. | .remove _ => Except FileFault Unit

/-- Files and folders below a root. The root itself is a folder and has no entry. -/
structure FileTree where
  /-- The number of bytes of the path that leads to the root. -/
  rootLength : Nat
  /-- What stands under the paths; every path occurs at most once. -/
  entries : List (Path × Node)
deriving DecidableEq, Inhabited

namespace FileTree

/-- The greatest number of bytes of a name. -/
def longestName : Nat := 255

/-- The greatest number of bytes of a path from the root of the file system. -/
def longestPath : Nat := 4095

/-- What stands under a path. -/
def node? (t : FileTree) (path : Path) : Option Node :=
  if path.isEmpty then some .folder else t.entries.lookup path

/-- The tree with a path cleared. -/
def erase (t : FileTree) (path : Path) : FileTree :=
  { t with entries := t.entries.filter fun e => e.1 != path }

/-- The tree with something under a path. -/
def insert (t : FileTree) (path : Path) (node : Node) : FileTree :=
  { t with entries := (path, node) :: (t.erase path).entries }

/-- The number of bytes of a path from the root of the file system. -/
def lengthOf (t : FileTree) (path : Path) : Nat :=
  path.foldl (fun n name => n + 1 + name.utf8ByteSize) t.rootLength

/-- What stops the walk along a path that begins at a folder. -/
def obstacle? (t : FileTree) (folder : Path) : Path → Option FileFault
  | [] => none
  | [name] => if longestName < name.utf8ByteSize then some .tooLong else none
  | name :: next :: rest =>
    if longestName < name.utf8ByteSize then some .tooLong
    else match t.node? (folder ++ [name]) with
      | none => some .missing
      | some (.file _) => some .notFolder
      | some .folder => t.obstacle? (folder ++ [name]) (next :: rest)

/-- What stands under a path, after the walk to it. -/
def find (t : FileTree) (path : Path) : Except FileFault (Option Node) :=
  if path.any fun name => name.toList.contains '\x00' then .error .nul
  else if longestPath < t.lengthOf path then .error .tooLong
  else match t.obstacle? [] path with
    | some fault => .error fault
    | none => .ok (t.node? path)

/-- The bytes of the file under a path. -/
def file (t : FileTree) (path : Path) : Except FileFault (List UInt8) :=
  match t.find path with
  | .error fault => .error fault
  | .ok none => .error .missing
  | .ok (some .folder) => .error .isFolder
  | .ok (some (.file bytes)) => .ok bytes

/-- A path at which a file may be put, in the place of one that stands there. -/
def place (t : FileTree) (path : Path) : Except FileFault Unit :=
  match t.find path with
  | .error fault => .error fault
  | .ok (some .folder) => .error .isFolder
  | .ok _ => .ok ()

/-- A path at which there is nothing. -/
def vacant (t : FileTree) (path : Path) : Except FileFault Unit :=
  match t.find path with
  | .error fault => .error fault
  | .ok (some _) => .error .occupied
  | .ok none => .ok ()

/-- Keep the tree if a call fails, and change it if it succeeds. -/
def commit (t : FileTree) (outcome : Except FileFault FileTree) :
    Except FileFault Unit × FileTree :=
  match outcome with
  | .ok changed => (.ok (), changed)
  | .error fault => (.error fault, t)

/-- Answer a call. -/
def answer (t : FileTree) : (call : FileCall) → call.Answer × FileTree
  | .makeFolder path => t.commit do
    t.vacant path
    return t.insert path .folder
  | .isFolder path =>
    (match t.find path with
      | .ok (some .folder) => true
      | _ => false, t)
  | .write path bytes => t.commit do
    t.place path
    return t.insert path (.file bytes)
  | .link source target => t.commit do
    let bytes ← t.file source
    t.vacant target
    return t.insert target (.file bytes)
  | .move source target => t.commit do
    let bytes ← t.file source
    t.place target
    return (t.erase source).insert target (.file bytes)
  | .remove path => t.commit do
    let _ ← t.file path
    return t.erase path
  | .read path => (t.file path, t)

/-- Put a file under a path whatever stands there, after the folders around it. -/
def plant (t : FileTree) (path : Path) (bytes : List UInt8) : FileTree :=
  let folders := (List.range path.length).map path.take
  let t := folders.foldl
    (fun t folder => if (t.node? folder).isNone then t.insert folder .folder else t) t
  t.insert path (.file bytes)

/-- A path with a slash after each folder. -/
def spell : Path × Node → String
  | (path, .file _) => String.intercalate "/" path
  | (path, .folder) => String.intercalate "/" path ++ "/"

/-- All files and folders, in the order of the bytes of their paths. -/
def listing (t : FileTree) : List (Path × Node) :=
  t.entries.mergeSort fun a b => decide (spell a ≤ spell b)

end FileTree

/-- A program over the calls on a tree of files. -/
abbrev FileProgram (α : Type) : Type :=
  Program FileCall FileCall.Answer α

namespace FileProgram

/-- Run a program on a tree that nothing else uses. -/
def run {α : Type} (p : FileProgram α) (t : FileTree) : α × FileTree :=
  Program.run (fun call t => t.answer call) p t

end FileProgram

end ContestPlatform.Content
