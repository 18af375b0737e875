import ContestPlatform.Proofs.FileTexts
import Mathlib.Logic.Relation

/-!
# Calls that share a tree of files

Any number of calls of a content store work on one tree of files, each through the steps of its own
program and in any order. A file is written in pieces, and any step can fail; what never fails is
removing a staged file. No call is cancelled, and every call stages its text under a name of its
own.

`Follows` is the outline that the program of a put keeps to, whatever it is answered: what it holds
under the path of its staged file at every point. It is checked once, for the program of a put, and
from then on `Effect` says all that one step of a call can do to the tree.
-/

namespace ContestPlatform.Content.FileStore

open Text.Utf8 (encode decode? decode?_encode)

/-! ## Steps -/

/-- Where a call stands. -/
inductive Place (α : Type) where
  /-- It goes on with a program. -/
  | at_ (rest : FileProgram α)
  /-- It is writing a file, and these bytes are still to come. -/
  | writing (path : Path) (rest : List UInt8) (next : Except FileFault Unit → FileProgram α)

/-- A call, with the name of its staged file. -/
structure Task where
  id : Uuid
  call : Call
  place : Place call.Answer

/-- A file call of a task that was answered. -/
structure Event where
  id : Uuid
  call : Call
  asked : FileCall
  answer : asked.Answer

/-- Calls that share a tree, and the file calls that were answered so far. -/
structure Pool where
  tree : FileTree
  tasks : List Task
  log : List Event

/-- A file call that takes more than one step. -/
def IsWrite : FileCall → Prop
  | .write .. => True
  | _ => False

/-- An answer that tells of a failure. -/
def Fails : (asked : FileCall) → asked.Answer → Prop
  | .isFolder _, answer => answer = false
  | .read _, answer => ∃ fault, answer = .error fault
  | .makeFolder _, answer => ∃ fault, answer = .error fault
  | .write .., answer => ∃ fault, answer = .error fault
  | .link .., answer => ∃ fault, answer = .error fault
  | .move .., answer => ∃ fault, answer = .error fault
  | .remove _, answer => ∃ fault, answer = .error fault

/-- One step of a task: the task and the tree after it, and what is to be remembered. -/
inductive Move (t : FileTree) : Task → Task → FileTree → List Event → Prop where
  /-- A file call is answered in one step. -/
  | answered {id : Uuid} {call : Call} {asked : FileCall}
      {next : asked.Answer → FileProgram call.Answer} (hwrite : ¬ IsWrite asked) :
      Move t ⟨id, call, .at_ (.ask asked next)⟩ ⟨id, call, .at_ (next (t.answer asked).1)⟩
        (t.answer asked).2 [⟨id, call, asked, (t.answer asked).1⟩]
  /-- A file call fails and changes nothing. Removing the staged file does not fail so. -/
  | trouble {id : Uuid} {call : Call} {asked : FileCall}
      {next : asked.Answer → FileProgram call.Answer} {answer : asked.Answer}
      (hfails : Fails asked answer) (hother : asked ≠ .remove [staging, id.text]) :
      Move t ⟨id, call, .at_ (.ask asked next)⟩ ⟨id, call, .at_ (next answer)⟩ t
        [⟨id, call, asked, answer⟩]
  /-- A file is opened to be written, and is empty then. -/
  | opened {id : Uuid} {call : Call} {path : Path} {bytes : List UInt8}
      {next : Except FileFault Unit → FileProgram call.Answer} (hplace : t.place path = .ok ()) :
      Move t ⟨id, call, .at_ (.ask (.write path bytes) next)⟩ ⟨id, call, .writing path bytes next⟩
        (t.insert path (.file [])) []
  /-- A piece is written. -/
  | piece {id : Uuid} {call : Call} {path : Path} {written piece rest : List UInt8}
      {next : Except FileFault Unit → FileProgram call.Answer}
      (hfile : t.node? path = some (.file written)) :
      Move t ⟨id, call, .writing path (piece ++ rest) next⟩ ⟨id, call, .writing path rest next⟩
        (t.insert path (.file (written ++ piece))) []
  /-- All is written. -/
  | finished {id : Uuid} {call : Call} {path : Path}
      {next : Except FileFault Unit → FileProgram call.Answer} :
      Move t ⟨id, call, .writing path [] next⟩ ⟨id, call, .at_ (next (.ok ()))⟩ t []
  /-- Writing breaks off. -/
  | broke {id : Uuid} {call : Call} {path : Path} {rest : List UInt8}
      {next : Except FileFault Unit → FileProgram call.Answer} (fault : FileFault) :
      Move t ⟨id, call, .writing path rest next⟩ ⟨id, call, .at_ (next (.error fault))⟩ t []

/-- One step of a pool. -/
inductive Step : Pool → Pool → Prop where
  /-- A call is begun, with a name for its staged file that no other call has. -/
  | begin_ (P : Pool) (id : Uuid) (call : Call) (hfresh : ∀ task ∈ P.tasks, task.id ≠ id)
      (houtside : (segments call.key).head? ≠ some staging) :
      Step P { P with
        tasks := P.tasks ++ [⟨id, call, .at_ (program [staging, id.text] call)⟩] }
  /-- A task makes a step. -/
  | move (P : Pool) {i : Nat} {task task' : Task} {t' : FileTree} {news : List Event}
      (htask : P.tasks[i]? = some task) (hmove : Move P.tree task task' t' news) :
      Step P ⟨t', P.tasks.set i task', P.log ++ news⟩

/-- The pool of a new store. -/
def Pool.initial (rootLength : Nat) : Pool :=
  ⟨empty rootLength, [], []⟩

/-- A pool that can come about. -/
def Reachable (rootLength : Nat) : Pool → Prop :=
  Relation.ReflTransGen Step (Pool.initial rootLength)

/-! ## Calls that run alone -/

section Alone

variable {P : Pool} {i : Nat} {id : Uuid} {call : Call}

private theorem getElem?_set_of_getElem? {task task' : Task} (htask : P.tasks[i]? = some task) :
    (P.tasks.set i task')[i]? = some task' :=
  List.getElem?_set_self (List.getElem?_eq_some_iff.mp htask).1

/-- A file that may be put somewhere is written there, piece by piece. -/
private theorem writes_alone {path : Path} {bytes : List UInt8}
    {next : Except FileFault Unit → FileProgram call.Answer}
    (htask : P.tasks[i]? = some ⟨id, call, .at_ (.ask (.write path bytes) next)⟩)
    (hplace : P.tree.place path = .ok ()) :
    Relation.ReflTransGen Step P ⟨P.tree.insert path (.file bytes),
      P.tasks.set i ⟨id, call, .at_ (next (.ok ()))⟩, P.log⟩ := by
  have hpath : path ≠ [] := by
    rintro rfl
    exact (FileTree.node?_of_place hplace).1 rfl
  have hempty : (P.tree.insert path (.file [])).node? path = some (.file []) := by
    rw [FileTree.node?_insert hpath, if_pos rfl]
  have hpiece : Move (P.tree.insert path (.file []))
      ⟨id, call, .writing path (bytes ++ []) next⟩ ⟨id, call, .writing path [] next⟩
      ((P.tree.insert path (.file [])).insert path (.file ([] ++ bytes))) [] := .piece hempty
  rw [List.append_nil, List.nil_append, FileTree.insert_insert] at hpiece
  have hopened := Step.move P htask (.opened hplace)
  have hwritten := Step.move ⟨P.tree.insert path (.file []),
    P.tasks.set i ⟨id, call, .writing path bytes next⟩, P.log⟩
    (getElem?_set_of_getElem? htask) hpiece
  have hfinished := Step.move ⟨P.tree.insert path (.file bytes),
    P.tasks.set i ⟨id, call, .writing path [] next⟩, P.log⟩
    (getElem?_set_of_getElem? htask) .finished
  rw [List.set_set, List.append_nil] at hwritten hfinished
  rw [List.append_nil] at hopened
  exact .tail (.tail (.single hopened) hwritten) hfinished

/-- A file call of a task that is not interrupted is answered as by the tree. -/
private theorem asks_alone {asked : FileCall} {next : asked.Answer → FileProgram call.Answer}
    (htask : P.tasks[i]? = some ⟨id, call, .at_ (.ask asked next)⟩) :
    ∃ log, Relation.ReflTransGen Step P ⟨(P.tree.answer asked).2,
      P.tasks.set i ⟨id, call, .at_ (next (P.tree.answer asked).1)⟩, log⟩ := by
  by_cases hwrite : IsWrite asked
  · cases asked with
    | write path bytes =>
      cases hplace : P.tree.place path with
      | error fault =>
        have hanswer : P.tree.answer (.write path bytes) = (.error fault, P.tree) := by
          simp only [FileTree.answer, hplace]
          rfl
        rw [hanswer]
        exact ⟨_, .single (.move P htask (.trouble ⟨fault, rfl⟩ (by rintro ⟨⟩)))⟩
      | ok done =>
        have hanswer : P.tree.answer (.write path bytes) =
            (.ok (), P.tree.insert path (.file bytes)) := by
          simp only [FileTree.answer, hplace]
          rfl
        rw [hanswer]
        exact ⟨_, writes_alone htask hplace⟩
    | makeFolder | isFolder | link | move | remove | read => exact hwrite.elim
  · exact ⟨_, .single (.move P htask (.answered hwrite))⟩

/-- A task that is not interrupted does what its program does. -/
theorem runs_alone {p : FileProgram call.Answer}
    (htask : P.tasks[i]? = some ⟨id, call, .at_ p⟩) :
    ∃ log, Relation.ReflTransGen Step P
      ⟨(p.run P.tree).2, P.tasks.set i ⟨id, call, .at_ (.done (p.run P.tree).1)⟩, log⟩ := by
  induction p generalizing P with
  | done result =>
    have hset : P.tasks.set i ⟨id, call, .at_ (.done result)⟩ = P.tasks := by
      obtain ⟨hi, hget⟩ := List.getElem?_eq_some_iff.mp htask
      rw [← hget, List.set_getElem_self]
    rw [run_done, hset]
    exact ⟨P.log, .refl⟩
  | ask asked next ih =>
    obtain ⟨log, hfirst⟩ := asks_alone htask
    have htask' : (P.tasks.set i ⟨id, call, .at_ (next (P.tree.answer asked).1)⟩)[i]? =
        some ⟨id, call, .at_ (next (P.tree.answer asked).1)⟩ := getElem?_set_of_getElem? htask
    obtain ⟨log', hrest⟩ := ih (P.tree.answer asked).1
      (P := ⟨(P.tree.answer asked).2, P.tasks.set i _, log⟩) htask'
    rw [List.set_set] at hrest
    exact ⟨log', hfirst.trans hrest⟩

end Alone

namespace Event

/-- A put publishes its text: one that may only create by linking, one that overwrites by moving. -/
def published (id : Uuid) (key body : String) : PutMode → Event
  | .createOnly =>
    ⟨id, .put key body .createOnly, .link [staging, id.text] (segments key), .ok ()⟩
  | .overwrite =>
    ⟨id, .put key body .overwrite, .move [staging, id.text] (segments key), .ok ()⟩

/-- A delete removes what is under its key. -/
def deleted (id : Uuid) (key : String) : Event :=
  ⟨id, .delete key, .remove (segments key), .ok ()⟩

/-- Nothing is published or deleted. -/
structure IsSilent (e : Event) : Prop where
  not_published : ∀ id key body mode, e ≠ published id key body mode
  not_deleted : ∀ id key, e ≠ deleted id key

end Event

/-! ## What a put holds -/

/-- What a put holds under the path of its staged file. -/
inductive Held where
  | nothing
  /-- A file with any content, or nothing. -/
  | something
  /-- The whole text. -/
  | whole

/-- A tree has under a path what is held there. -/
def Held.In (t : FileTree) (staged : Path) (bytes : List UInt8) : Held → Prop
  | .nothing => t.node? staged = none
  | .something => t.node? staged ≠ some .folder
  | .whole => t.node? staged = some (.file bytes)

/-- The outline of a put. It touches nothing outside but by making folders and by publishing the
    whole text, and it ends with nothing held; it succeeds only if it has published. -/
def Follows (staged target : Path) (bytes : List UInt8) (mode : PutMode) :
    Held → Bool → FileProgram (Except ContentFault Unit) → Prop
  | held, published, .done result =>
    held = .nothing ∧ (result = .ok () → published = true)
  | held, published, .ask (.makeFolder path) next =>
    path.head? ≠ some staging ∧
      ∀ answer, Follows staged target bytes mode held published (next answer)
  | held, published, .ask (.isFolder _) next =>
    ∀ answer, Follows staged target bytes mode held published (next answer)
  | held, published, .ask (.write path content) next =>
    held = .nothing ∧ path = staged ∧ content = bytes ∧
      Follows staged target bytes mode .whole published (next (.ok ())) ∧
      ∀ fault, Follows staged target bytes mode .something published (next (.error fault))
  | held, published, .ask (.link source goal) next =>
    held = .whole ∧ source = staged ∧ goal = target ∧ mode = .createOnly ∧
      Follows staged target bytes mode .whole true (next (.ok ())) ∧
      ∀ fault, Follows staged target bytes mode .whole published (next (.error fault))
  | held, published, .ask (.move source goal) next =>
    held = .whole ∧ source = staged ∧ goal = target ∧ mode = .overwrite ∧
      Follows staged target bytes mode .nothing true (next (.ok ())) ∧
      ∀ fault, Follows staged target bytes mode .whole published (next (.error fault))
  | _, published, .ask (.remove path) next =>
    path = staged ∧
      ∀ answer, Follows staged target bytes mode .nothing published (next answer)
  | _, _, .ask (.read _) _ => False

/-- A path begins as the paths around it do. -/
theorem head?_of_around {q path : Path} {name : String} (h : q <+: path)
    (hhead : q.head? = some name) : path.head? = some name := by
  obtain ⟨rest, rfl⟩ := h
  rw [List.head?_append, hhead]
  rfl

section Outline

variable {staged target : Path} {bytes : List UInt8} {mode : PutMode}

/-- Making folders outside holds nothing. -/
theorem follows_makeFolders (names : List String)
    (houtside : names.reverse.head? ≠ some staging)
    {rest : Except FileFault Unit → FileProgram (Except ContentFault Unit)}
    (hrest : ∀ made, Follows staged target bytes mode .nothing false (rest made)) :
    Follows staged target bytes mode .nothing false ((makeFolders names).bind rest) := by
  induction names generalizing rest with
  | nil => exact hrest _
  | cons name outer ih =>
    have hthere : ∀ fault, Follows staged target bytes mode .nothing false
        ((orStanding (name :: outer).reverse fault).bind rest) :=
      fun fault stands => hrest _
    rw [makeFolders_cons, Program.ask_bind]
    refine ⟨houtside, fun made => ?_⟩
    rcases made with fault | ⟨⟩
    · cases fault with
      | missing =>
        -- The folders around it are made first, and then it is tried again.
        have houter : outer.reverse.head? ≠ some staging :=
          fun hhead => houtside (head?_of_around ⟨[name], by simp⟩ hhead)
        dsimp only
        rw [Program.bind_assoc]
        refine ih houter fun around => ?_
        rcases around with fault | ⟨⟩
        · exact hrest _
        · refine ⟨houtside, fun made => ?_⟩
          rcases made with fault | ⟨⟩
          · exact hthere fault
          · exact hrest _
      | occupied | notFolder | isFolder | tooLong | nul => exact hthere _
    · exact hrest _

end Outline

/-- The program of a put keeps to its outline. -/
theorem follows_put (staged : Path) (key body : String) (mode : PutMode)
    (houtside : (segments key).head? ≠ some staging) :
    Follows staged (segments key) (encode body) mode .nothing false
      (put key staged body mode) := by
  by_cases hkey : isKey key = true
  · have hfront : (segments key).dropLast.reverse.reverse.head? ≠ some staging := by
      rw [List.reverse_reverse]
      exact fun hhead => houtside (head?_of_around (List.dropLast_prefix _) hhead)
    rw [put_eq staged body mode hkey]
    refine follows_makeFolders _ hfront fun made => ?_
    rcases made with fault | ⟨⟩
    · exact ⟨rfl, by rintro ⟨⟩⟩
    · refine ⟨rfl, rfl, rfl, ?_, fun fault => ⟨rfl, fun _ => ⟨rfl, by rintro ⟨⟩⟩⟩⟩
      -- The whole text is staged.
      dsimp only
      cases mode with
      | createOnly =>
        rw [publish_createOnly]
        refine ⟨rfl, rfl, rfl, rfl, ⟨rfl, fun _ => ⟨rfl, fun _ => rfl⟩⟩, fun fault => ⟨rfl, fun _ => ?_⟩⟩
        exact ⟨rfl, fun h => absurd h (told_error_ne_ok key fault)⟩
      | overwrite =>
        rw [publish_overwrite]
        refine ⟨rfl, rfl, rfl, rfl, ⟨rfl, fun _ => rfl⟩, fun fault => ⟨rfl, fun _ => ?_⟩⟩
        exact ⟨rfl, fun h => absurd h (told_error_ne_ok key fault)⟩
  · have hinvalid : put key staged body mode = .done (.error (.invalidKey key)) := by
      rw [put, Bool.eq_false_iff.mpr hkey]
      rfl
    rw [hinvalid]
    exact ⟨rfl, by rintro ⟨⟩⟩

/-! ## What one step does -/

/-- What a step of a call can do to the tree, with what is remembered of it. -/
inductive Effect (id : Uuid) (call : Call) (t : FileTree) : FileTree → List Event → Prop where
  | idle {news : List Event} (hsilent : ∀ e ∈ news, e.IsSilent) : Effect id call t t news
  /-- A folder is made outside. -/
  | folder {path : Path} {news : List Event} (hsilent : ∀ e ∈ news, e.IsSilent)
      (houtside : path.head? ≠ some staging) (hvacant : t.node? path = none) :
      Effect id call t (t.insert path .folder) news
  /-- The staged file is opened or written on. -/
  | staged {bytes : List UInt8} (hwalkable : t.Walkable [staging, id.text]) :
      Effect id call t (t.insert [staging, id.text] (.file bytes)) []
  /-- The staged file is removed. -/
  | cleared {news : List Event} (hsilent : ∀ e ∈ news, e.IsSilent) :
      Effect id call t (t.erase [staging, id.text]) news
  /-- A text is created. -/
  | created {key body : String} (hcall : call = .put key body .createOnly)
      (hvacant : t.node? (segments key) = none) :
      Effect id call t (t.insert (segments key) (.file (encode body)))
        [.published id key body .createOnly]
  /-- A text is put in the place of what was there. -/
  | replaced {key body : String} (hcall : call = .put key body .overwrite) :
      Effect id call t
        ((t.erase [staging, id.text]).insert (segments key) (.file (encode body)))
        [.published id key body .overwrite]
  /-- A text is removed. -/
  | deleted {key : String} (hcall : call = .delete key) :
      Effect id call t (t.erase (segments key)) [.deleted id key]

/-- Every text outside was published under its key. -/
def Contents (t : FileTree) (log : List Event) : Prop :=
  ∀ path bytes, path.head? ≠ some staging → t.node? path = some (.file bytes) →
    ∃ id key body mode, path = segments key ∧ bytes = encode body ∧
      Event.published id key body mode ∈ log

/-- A put is where its outline says. -/
def Puts (t : FileTree) (log : List Event) (id : Uuid) (key body : String) (mode : PutMode) :
    Place (Except ContentFault Unit) → Prop
  | .at_ rest =>
    ∃ (held : Held) (published : Bool), held.In t [staging, id.text] (encode body) ∧
      (published = true → Event.published id key body mode ∈ log) ∧
      Follows [staging, id.text] (segments key) (encode body) mode held published rest
  | .writing path rest next =>
    path = [staging, id.text] ∧
      (∃ written, t.node? path = some (.file written) ∧ written ++ rest = encode body) ∧
      ∃ published : Bool, (published = true → Event.published id key body mode ∈ log) ∧
        Follows path (segments key) (encode body) mode .whole published (next (.ok ())) ∧
        ∀ fault, Follows path (segments key) (encode body) mode .something published
          (next (.error fault))

/-- A get has not begun, or is done; what it gives was published. -/
def Gets (log : List Event) (key : String) (place : Place (Except ContentFault String)) : Prop :=
  place = .at_ (get key) ∨ ∃ result, place = .at_ (.done result) ∧
    ∀ body, result = .ok body → ∃ id mode, Event.published id key body mode ∈ log

/-- A delete has not begun, or is done. -/
def Removes (key : String) (place : Place (Except ContentFault Unit)) : Prop :=
  place = .at_ (delete key) ∨ ∃ result, place = .at_ (.done result)

/-- A task is where it can be. Only a put has a staged file. -/
def Task.Sound (t : FileTree) (log : List Event) : Task → Prop
  | ⟨id, .put key body mode, place⟩ => Puts t log id key body mode place
  | ⟨id, .get key, place⟩ => t.node? [staging, id.text] = none ∧ Gets log key place
  | ⟨id, .delete key, place⟩ => t.node? [staging, id.text] = none ∧ Removes key place

section Moves

variable {t t' : FileTree} {log news : List Event} {id : Uuid} {task' : Task}

theorem Held.In.congr {held : Held} {staged : Path} {bytes : List UInt8}
    (h : held.In t staged bytes) (hsame : t'.node? staged = t.node? staged) :
    held.In t' staged bytes := by
  cases held with
  | nothing => exact hsame.trans h
  | something => exact fun hfolder => h (hsame.symm.trans hfolder)
  | whole => exact hsame.trans h

theorem Held.In.not_folder {held : Held} {staged : Path} {bytes : List UInt8}
    (h : held.In t staged bytes) : t.node? staged ≠ some .folder := by
  intro hfolder
  cases held with
  | nothing => exact nomatch h.symm.trans hfolder
  | something => exact h hfolder
  | whole => exact nomatch h.symm.trans hfolder

/-- Only linking, moving and the removals of deletes are not silent. -/
theorem Event.isSilent_of_ne {call : Call} {asked : FileCall} (answer : asked.Answer)
    (hlink : ∀ source target, asked ≠ .link source target)
    (hmove : ∀ source target, asked ≠ .move source target)
    (hremove : ∀ key path, call = .delete key → asked ≠ .remove path) :
    (⟨id, call, asked, answer⟩ : Event).IsSilent := by
  constructor
  · intro id' key body mode h
    cases mode with
    | createOnly => exact hlink _ _ (congrArg Event.asked h)
    | overwrite => exact hmove _ _ (congrArg Event.asked h)
  · intro id' key h
    exact hremove key _ (congrArg Event.call h) (congrArg Event.asked h)

/-- What failed is silent. -/
theorem Event.isSilent_of_fails {call : Call} {asked : FileCall} {answer : asked.Answer}
    (hfails : Fails asked answer) : (⟨id, call, asked, answer⟩ : Event).IsSilent := by
  cases asked with
  | makeFolder | isFolder | write | read => exact isSilent_of_ne answer nofun nofun nofun
  | link | move | remove =>
    obtain ⟨fault, rfl⟩ := hfails
    constructor
    · intro id' key body mode h
      cases mode <;> exact nomatch h
    · exact nofun

/-- Paths of staged files lie in their own folder. -/
theorem staged_ne_of_outside {path : Path} (houtside : path.head? ≠ some staging) :
    [staging, id.text] ≠ path := by
  rintro rfl
  exact houtside rfl

section Put

variable {key body : String} {mode : PutMode} {held : Held} {published : Bool}

/-- The staged file is gone once it was asked for its removal. -/
theorem node?_of_remove_error {fault : FileFault} (hheld : held.In t [staging, id.text] (encode body))
    (hstands : t.Stands [staging])
    (hwalkable : t.node? [staging, id.text] ≠ none → t.Walkable [staging, id.text])
    (hfile : t.file [staging, id.text] = .error fault) : t.node? [staging, id.text] = none := by
  by_contra hthere
  have hfind := FileTree.find_of_stands (hwalkable hthere) hstands
  rw [FileTree.file, hfind] at hfile
  rcases hnode : t.node? [staging, id.text] with - | (bytes | -)
  · exact hthere hnode
  · rw [hnode] at hfile
    cases hfile
  · exact hheld.not_folder hnode

/-- A put is answered. -/
theorem effect_put_answered {asked : FileCall}
    {next : asked.Answer → FileProgram (Except ContentFault Unit)} (hwrite : ¬ IsWrite asked)
    (hheld : held.In t [staging, id.text] (encode body))
    (hpublished : published = true → Event.published id key body mode ∈ log)
    (hfollows : Follows [staging, id.text] (segments key) (encode body) mode held published
      (.ask asked next))
    (hstands : t.Stands [staging])
    (hwalkable : t.node? [staging, id.text] ≠ none → t.Walkable [staging, id.text])
    (houtside : (segments key).head? ≠ some staging) :
    Effect id (.put key body mode) t (t.answer asked).2
        [⟨id, .put key body mode, asked, (t.answer asked).1⟩] ∧
      Puts (t.answer asked).2 (log ++ [⟨id, .put key body mode, asked, (t.answer asked).1⟩]) id key
        body mode (.at_ (next (t.answer asked).1)) := by
  have hlater : ∀ {news : List Event}, published = true →
      Event.published id key body mode ∈ log ++ news :=
    fun htrue => List.mem_append_left _ (hpublished htrue)
  have hne : [staging, id.text] ≠ segments key := staged_ne_of_outside houtside
  have htarget : segments key ≠ [] := segments_ne_nil key
  cases asked with
  | makeFolder path =>
    obtain ⟨hpath, hnext⟩ := hfollows
    have hsilent (answer) : (⟨id, .put key body mode, .makeFolder path, answer⟩ : Event).IsSilent :=
      Event.isSilent_of_ne answer nofun nofun nofun
    rcases t.answer_makeFolder_cases path with ⟨fault, hanswer⟩ | ⟨hfind, hanswer⟩
    · rw [hanswer]
      exact ⟨.idle (List.forall_mem_singleton.mpr (hsilent _)), held, published, hheld, hlater,
        hnext _⟩
    · have hvacant := (FileTree.node?_of_find hfind).1
      rw [hanswer]
      refine ⟨.folder (List.forall_mem_singleton.mpr (hsilent _)) hpath hvacant, held, published,
        hheld.congr ?_, hlater, hnext _⟩
      rw [FileTree.node?_insert (FileTree.ne_nil_of_vacant hvacant),
        if_neg (staged_ne_of_outside hpath)]
  | isFolder path =>
    have hsilent (answer) : (⟨id, .put key body mode, .isFolder path, answer⟩ : Event).IsSilent :=
      Event.isSilent_of_ne answer nofun nofun nofun
    exact ⟨.idle (List.forall_mem_singleton.mpr (hsilent _)), held, published, hheld, hlater,
      hfollows _⟩
  | write path content => exact absurd trivial hwrite
  | link source goal =>
    obtain ⟨rfl, rfl, rfl, rfl, hok, herror⟩ := hfollows
    rcases t.answer_link_cases [staging, id.text] (segments key) with
      ⟨fault, hanswer⟩ | ⟨bytes, hsource, hvacant, hanswer⟩
    · rw [hanswer]
      exact ⟨.idle (List.forall_mem_singleton.mpr (Event.isSilent_of_fails ⟨fault, rfl⟩)), .whole,
        published, hheld, hlater, herror fault⟩
    · -- What is linked is the whole text.
      cases (FileTree.node?_of_find hsource).1.symm.trans hheld
      rw [hanswer]
      refine ⟨.created rfl (FileTree.node?_of_find hvacant).1, .whole, true, hheld.congr ?_,
        fun _ => List.mem_append_right _ List.mem_cons_self, hok⟩
      rw [FileTree.node?_insert htarget, if_neg hne]
  | move source goal =>
    obtain ⟨rfl, rfl, rfl, rfl, hok, herror⟩ := hfollows
    rcases t.answer_move_cases [staging, id.text] (segments key) with
      ⟨fault, hanswer⟩ | ⟨bytes, hsource, -, hanswer⟩
    · rw [hanswer]
      exact ⟨.idle (List.forall_mem_singleton.mpr (Event.isSilent_of_fails ⟨fault, rfl⟩)), .whole,
        published, hheld, hlater, herror fault⟩
    · -- What is moved is the whole text.
      cases (FileTree.node?_of_find hsource).1.symm.trans hheld
      rw [hanswer]
      refine ⟨.replaced rfl, .nothing, true, ?_,
        fun _ => List.mem_append_right _ List.mem_cons_self, hok⟩
      rw [Held.In, FileTree.node?_insert htarget, if_neg hne,
        FileTree.node?_erase (List.cons_ne_nil _ _), if_pos rfl]
  | remove path =>
    obtain ⟨rfl, hnext⟩ := hfollows
    have hsilent (answer) : (⟨id, .put key body mode, .remove [staging, id.text], answer⟩ : Event
        ).IsSilent := Event.isSilent_of_ne answer nofun nofun nofun
    rcases t.answer_remove_cases [staging, id.text] with
      ⟨fault, hfile, hanswer⟩ | ⟨bytes, -, hanswer⟩
    · rw [hanswer]
      exact ⟨.idle (List.forall_mem_singleton.mpr (hsilent _)), .nothing, published,
        node?_of_remove_error hheld hstands hwalkable hfile, hlater, hnext _⟩
    · rw [hanswer]
      refine ⟨.cleared (List.forall_mem_singleton.mpr (hsilent _)), .nothing, published, ?_, hlater,
        hnext _⟩
      rw [Held.In, FileTree.node?_erase (List.cons_ne_nil _ _), if_pos rfl]
  | read path => exact hfollows.elim

/-- A file call of a put fails. -/
theorem puts_of_fails {asked : FileCall}
    {next : asked.Answer → FileProgram (Except ContentFault Unit)} {answer : asked.Answer}
    (hfails : Fails asked answer) (hother : asked ≠ .remove [staging, id.text])
    (hheld : held.In t [staging, id.text] (encode body))
    (hpublished : published = true → Event.published id key body mode ∈ log)
    (hfollows : Follows [staging, id.text] (segments key) (encode body) mode held published
      (.ask asked next)) :
    Puts t log id key body mode (.at_ (next answer)) := by
  cases asked with
  | makeFolder path => exact ⟨held, published, hheld, hpublished, hfollows.2 answer⟩
  | isFolder path => exact ⟨held, published, hheld, hpublished, hfollows answer⟩
  | write path content =>
    obtain ⟨rfl, rfl, rfl, -, herror⟩ := hfollows
    obtain ⟨fault, rfl⟩ := hfails
    exact ⟨.something, published, hheld.not_folder, hpublished, herror fault⟩
  | link source goal =>
    obtain ⟨rfl, rfl, rfl, -, -, herror⟩ := hfollows
    obtain ⟨fault, rfl⟩ := hfails
    exact ⟨.whole, published, hheld, hpublished, herror fault⟩
  | move source goal =>
    obtain ⟨rfl, rfl, rfl, -, -, herror⟩ := hfollows
    obtain ⟨fault, rfl⟩ := hfails
    exact ⟨.whole, published, hheld, hpublished, herror fault⟩
  | remove path => exact absurd (congrArg FileCall.remove hfollows.1) hother
  | read path => exact hfollows.elim

/-- One step of a put. -/
theorem effect_put {place : Place (Except ContentFault Unit)}
    (hputs : Puts t log id key body mode place) (hstands : t.Stands [staging])
    (hwalkable : t.node? [staging, id.text] ≠ none → t.Walkable [staging, id.text])
    (houtside : (segments key).head? ≠ some staging)
    (hmove : Move t ⟨id, .put key body mode, place⟩ task' t' news) :
    Effect id (.put key body mode) t t' news ∧
      ∃ place', task' = ⟨id, .put key body mode, place'⟩ ∧
        Puts t' (log ++ news) id key body mode place' := by
  have hstaged : [staging, id.text] ≠ [] := List.cons_ne_nil _ _
  cases hmove with
  | answered hwrite =>
    obtain ⟨held, published, hheld, hpublished, hfollows⟩ := hputs
    obtain ⟨heffect, hputs'⟩ := effect_put_answered hwrite hheld hpublished hfollows hstands
      hwalkable houtside
    exact ⟨heffect, _, rfl, hputs'⟩
  | trouble hfails hother =>
    obtain ⟨held, published, hheld, hpublished, hfollows⟩ := hputs
    refine ⟨.idle (List.forall_mem_singleton.mpr (Event.isSilent_of_fails hfails)), _, rfl, ?_⟩
    exact puts_of_fails hfails hother hheld (fun h => List.mem_append_left _ (hpublished h)) hfollows
  | opened hplace =>
    obtain ⟨held, published, -, hpublished, -, rfl, rfl, hok, herror⟩ := hputs
    refine ⟨.staged (FileTree.node?_of_place hplace).2, _, rfl, rfl, ⟨[], ?_, rfl⟩, published, ?_,
      hok, herror⟩
    · rw [FileTree.node?_insert hstaged, if_pos rfl]
    · exact fun h => List.mem_append_left _ (hpublished h)
  | @piece _ _ _ written piece rest next hfile =>
    obtain ⟨rfl, ⟨_, hwritten, hbytes⟩, published, hpublished, hok, herror⟩ := hputs
    cases hfile.symm.trans hwritten
    have hthere : t.node? [staging, id.text] ≠ none := fun hnone => nomatch hnone.symm.trans hfile
    refine ⟨.staged (hwalkable hthere), _, rfl, rfl, ⟨written ++ piece, ?_, ?_⟩, published, ?_, hok,
      herror⟩
    · rw [FileTree.node?_insert hstaged, if_pos rfl]
    · rw [List.append_assoc, hbytes]
    · exact fun h => List.mem_append_left _ (hpublished h)
  | finished =>
    obtain ⟨rfl, ⟨written, hwritten, hbytes⟩, published, hpublished, hok, -⟩ := hputs
    rw [List.append_nil] at hbytes
    subst hbytes
    refine ⟨.idle nofun, _, rfl, .whole, published, hwritten, ?_, hok⟩
    exact fun h => List.mem_append_left _ (hpublished h)
  | broke fault =>
    obtain ⟨rfl, ⟨written, hwritten, -⟩, published, hpublished, -, herror⟩ := hputs
    refine ⟨.idle nofun, _, rfl, .something, published, ?_, ?_, herror fault⟩
    · exact fun hfolder => nomatch hwritten.symm.trans hfolder
    · exact fun h => List.mem_append_left _ (hpublished h)

end Put

/-- Nothing more happens to a task that is done. -/
theorem not_move_of_done {call : Call} {result : call.Answer}
    (hmove : Move t ⟨id, call, .at_ (.done result)⟩ task' t' news) : False :=
  nomatch hmove

/-- One step of a get. -/
theorem effect_get {key : String} {place : Place (Except ContentFault String)}
    (hgets : Gets log key place) (hcontents : Contents t log)
    (houtside : (segments key).head? ≠ some staging)
    (hmove : Move t ⟨id, .get key, place⟩ task' t' news) :
    (t' = t ∧ ∀ e ∈ news, e.IsSilent) ∧
      ∃ place', task' = ⟨id, .get key, place'⟩ ∧ Gets (log ++ news) key place' := by
  rcases hgets with rfl | ⟨result, rfl, -⟩
  · by_cases hkey : isKey key = true
    · rw [get_eq hkey] at hmove
      cases hmove with
      | answered hwrite =>
        refine ⟨⟨rfl, List.forall_mem_singleton.mpr (Event.isSilent_of_ne _ nofun nofun nofun)⟩, _,
          rfl, Or.inr ⟨_, rfl, fun body hbody => ?_⟩⟩
        -- What was read was published, and under this key.
        obtain ⟨bytes, hread, hdecode⟩ := decode?_of_gotten hbody
        obtain ⟨id', key', text, mode, hpath, rfl, hevent⟩ :=
          hcontents _ _ houtside (FileTree.node?_of_file hread).1
        rw [decode?_encode] at hdecode
        cases Option.some.inj hdecode
        cases segments_injective hpath
        exact ⟨id', mode, List.mem_append_left _ hevent⟩
      | trouble hfails hother =>
        refine ⟨⟨rfl, List.forall_mem_singleton.mpr (Event.isSilent_of_fails hfails)⟩, _, rfl,
          Or.inr ⟨_, rfl, fun body hbody => ?_⟩⟩
        obtain ⟨fault, rfl⟩ := hfails
        obtain ⟨bytes, hread, -⟩ := decode?_of_gotten hbody
        exact nomatch hread
    · have hinvalid : get key = .done (.error (.invalidKey key)) := by
        rw [get, Bool.eq_false_iff.mpr hkey]
        rfl
      rw [hinvalid] at hmove
      exact (not_move_of_done hmove).elim
  · exact (not_move_of_done hmove).elim

/-- One step of a delete. -/
theorem effect_delete {key : String} {place : Place (Except ContentFault Unit)}
    (hremoves : Removes key place) (houtside : (segments key).head? ≠ some staging)
    (hmove : Move t ⟨id, .delete key, place⟩ task' t' news) :
    (Effect id (.delete key) t t' news ∧
        t'.node? [staging, id.text] = t.node? [staging, id.text]) ∧
      ∃ place', task' = ⟨id, .delete key, place'⟩ ∧ Removes key place' := by
  rcases hremoves with rfl | ⟨result, rfl⟩
  · by_cases hkey : isKey key = true
    · rw [delete_eq hkey] at hmove
      cases hmove with
      | answered hwrite =>
        refine ⟨?_, _, rfl, Or.inr ⟨_, rfl⟩⟩
        rcases t.answer_remove_cases (segments key) with
          ⟨fault, -, hanswer⟩ | ⟨bytes, -, hanswer⟩
        · rw [hanswer]
          exact ⟨.idle (List.forall_mem_singleton.mpr (Event.isSilent_of_fails ⟨fault, rfl⟩)), rfl⟩
        · rw [hanswer]
          refine ⟨.deleted rfl, ?_⟩
          rw [FileTree.node?_erase (segments_ne_nil key), if_neg (staged_ne_of_outside houtside)]
      | trouble hfails hother =>
        exact ⟨⟨.idle (List.forall_mem_singleton.mpr (Event.isSilent_of_fails hfails)), rfl⟩, _, rfl,
          Or.inr ⟨_, rfl⟩⟩
    · have hinvalid : delete key = .done (.error (.invalidKey key)) := by
        rw [delete, Bool.eq_false_iff.mpr hkey]
        rfl
      rw [hinvalid] at hmove
      exact (not_move_of_done hmove).elim
  · exact (not_move_of_done hmove).elim

end Moves

end ContestPlatform.Content.FileStore
