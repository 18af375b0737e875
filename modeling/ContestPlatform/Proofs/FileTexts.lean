import ContestPlatform.Content.FileStore
import ContestPlatform.Proofs.ContentMap
import ContestPlatform.Proofs.FileTrees
import ContestPlatform.Proofs.TextBytes
import ContestPlatform.Proofs.UuidText
import Mathlib.Data.List.Infix

/-!
# Texts in a tree of files

Where keys can all be files of one tree, the tree keeps texts under them like a map. It keeps more
than the map: folders stay behind when the files in them are deleted, and a put stages its text in a
file of its own before it publishes it. `Represents` says which trees stand for a map between calls,
and `program_run` that every call on such a tree is answered as the map answers it and leaves a tree
that stands for the map after the call.
-/

namespace ContestPlatform.Content

open Text.Utf8 (encode decode? decode?_encode)

/-- A key has at least one segment. -/
theorem segments_ne_nil (key : String) : segments key ≠ [] := by
  rw [segments, Ne, List.map_eq_nil_iff]
  exact List.splitOn_ne_nil '/' key.toList

/-- The segments of a key determine it. -/
theorem segments_injective : Function.Injective segments := by
  intro key key' h
  have hsplit := List.map_injective_iff.mpr (fun _ _ => String.ofList_injective) h
  have hlist := congrArg (List.intercalate ['/']) hsplit
  rw [List.intercalate_splitOn, List.intercalate_splitOn] at hlist
  exact String.toList_injective hlist

namespace FileStore

/-! ## What programs do to a tree -/

section Programs

variable {α β : Type} {t : FileTree} {path : Path}

@[simp] theorem run_done (a : α) : FileProgram.run (.done a) t = (a, t) := rfl

@[simp] theorem run_ask (call : FileCall) (next : call.Answer → FileProgram α) :
    FileProgram.run (.ask call next) t = (next (t.answer call).1).run (t.answer call).2 := rfl

theorem run_bind (p : FileProgram α) (f : α → FileProgram β) :
    FileProgram.run (p.bind f) t = (f (p.run t).1).run (p.run t).2 :=
  Program.run_bind _ p f t

/-- A folder is made where all folders around it stand, unless it stands already. -/
theorem answer_makeFolder_of_stands (h : t.Walkable path) (hclear : t.IsClear path)
    (hstands : t.Stands path.dropLast) :
    (t.node? path = none ∧ t.answer (.makeFolder path) = (.ok (), t.insert path .folder)) ∨
      (t.node? path = some .folder ∧ t.answer (.makeFolder path) = (.error .occupied, t) ∧
        t.answer (.isFolder path) = (true, t)) := by
  have hfind := FileTree.find_of_stands h hstands
  rcases hclear.node?_cases List.prefix_rfl with hnone | hfolder
  · rw [hnone] at hfind
    refine Or.inl ⟨hnone, ?_⟩
    simp only [FileTree.answer, FileTree.vacant, hfind]
    rfl
  · rw [hfolder] at hfind
    refine Or.inr ⟨hfolder, ?_, ?_⟩
    · simp only [FileTree.answer, FileTree.vacant, hfind]
      rfl
    · simp only [FileTree.answer, hfind]

end Programs

/-- How making a folder ends after a failure: a folder that stands there is fine. -/
def orStanding (path : Path) (f : FileFault) : FileProgram (Except FileFault Unit) :=
  .ask (.isFolder path) fun stands => .done (if stands then .ok () else .error f)

/-- Make a folder in a folder that should stand. -/
def makeLast (path : Path) : FileProgram (Except FileFault Unit) :=
  .ask (.makeFolder path) fun
    | .ok () => .done (.ok ())
    | .error f => orStanding path f

theorem makeFolders_cons (name : String) (outer : List String) :
    makeFolders (name :: outer) = .ask (.makeFolder (name :: outer).reverse) fun
      | .ok () => .done (.ok ())
      | .error .missing => (makeFolders outer).bind fun
        | .error f => .done (.error f)
        | .ok () => makeLast (name :: outer).reverse
      | .error f => orStanding (name :: outer).reverse f := by
  rw [makeFolders]
  refine Program.ask_congr fun made => ?_
  rcases made with fault | ⟨⟩
  · cases fault with
    | missing =>
      refine congrArg (Program.bind (makeFolders outer)) (funext fun around => ?_)
      rcases around with fault | ⟨⟩
      · rfl
      · refine Program.ask_congr fun made => ?_
        rcases made with fault | ⟨⟩ <;> rfl
    | occupied | notFolder | isFolder | tooLong | nul => rfl
  · rfl

/-- A tree in which a folder and all folders around it were made. -/
structure Furnished (t t' : FileTree) (folder : Path) : Prop where
  root : t'.rootLength = t.rootLength
  node? (q : Path) : t'.node? q = if q <+: folder then some .folder else t.node? q

namespace Furnished

variable {t t' t'' : FileTree} {path : Path}

theorem of_stands (h : t.Stands path) : Furnished t t path := by
  refine ⟨rfl, fun q => ?_⟩
  split_ifs with hq
  · exact h q hq
  · rfl

theorem insert (hne : path ≠ []) (h : t.Stands path.dropLast) :
    Furnished t (t.insert path .folder) path := by
  refine ⟨rfl, fun q => ?_⟩
  rw [FileTree.node?_insert hne]
  split_ifs with hlast hq hq
  · rfl
  · exact absurd (hlast ▸ List.prefix_rfl) hq
  · exact h q ((FileTree.prefix_cases hq).resolve_left hlast)
  · rfl

/-- The last folder of a path is made after the folders around it. -/
theorem last (h : Furnished t t' path.dropLast) (hlast : Furnished t' t'' path) :
    Furnished t t'' path := by
  refine ⟨hlast.root.trans h.root, fun q => ?_⟩
  rw [hlast.node?, h.node?]
  split_ifs with hq hfront
  · rfl
  · exact absurd (hfront.trans (List.dropLast_prefix path)) hq
  · rfl

theorem stands (h : Furnished t t' path) : t'.Stands path := by
  intro q hq
  rw [h.node?, if_pos hq]

/-- No file was made. -/
theorem isClear {folder : Path} (h : Furnished t t' path) (hclear : t.IsClear folder) :
    t'.IsClear folder := by
  intro q hq bytes hfile
  rw [h.node?] at hfile
  split_ifs at hfile
  · exact nomatch hfile
  · exact hclear q hq bytes hfile

end Furnished

/-- A folder is made in a folder that stands. -/
private theorem run_makeFolder {path : Path} {t : FileTree}
    {next : Except FileFault Unit → FileProgram (Except FileFault Unit)} (hne : path ≠ [])
    (h : t.Walkable path) (hclear : t.IsClear path) (hstands : t.Stands path.dropLast)
    (hmade : next (.ok ()) = .done (.ok ()))
    (hthere : next (.error .occupied) = orStanding path .occupied) :
    (FileProgram.run (.ask (.makeFolder path) next) t).1 = .ok () ∧
      Furnished t (FileProgram.run (.ask (.makeFolder path) next) t).2 path := by
  rw [run_ask]
  rcases answer_makeFolder_of_stands h hclear hstands with
    ⟨-, hanswer⟩ | ⟨hfolder, hanswer, hasked⟩
  · rw [hanswer, hmade, run_done]
    exact ⟨rfl, Furnished.insert hne hstands⟩
  · have hall : t.Stands path := by
      intro q hq
      rcases FileTree.prefix_cases hq with rfl | hfront
      · exact hfolder
      · exact hstands q hfront
    rw [hanswer, hthere, orStanding, run_ask, hasked, run_done]
    exact ⟨rfl, Furnished.of_stands hall⟩

/-- A folder that can be made is made, after the folders around it. -/
theorem run_makeFolders (names : List String) {t : FileTree} (h : t.Walkable names.reverse)
    (hclear : t.IsClear names.reverse) :
    ((makeFolders names).run t).1 = .ok () ∧
      Furnished t ((makeFolders names).run t).2 names.reverse := by
  induction names generalizing t with
  | nil =>
    refine ⟨rfl, Furnished.of_stands fun q hq => ?_⟩
    rw [List.prefix_nil.mp hq]
    rfl
  | cons name outer ih =>
    have hne : (name :: outer).reverse ≠ [] := by simp
    have hfront : (name :: outer).reverse.dropLast = outer.reverse := by simp
    have hinto : outer.reverse <+: (name :: outer).reverse := ⟨[name], by simp⟩
    rw [makeFolders_cons]
    generalize (name :: outer).reverse = path at *
    rcases FileTree.find_cases h (hclear.of_prefix (List.dropLast_prefix path)) with
      ⟨hstands, -⟩ | ⟨-, hmissing⟩
    · exact run_makeFolder hne h hclear hstands rfl rfl
    · -- The folders around it are made first, and then it is tried again.
      have hanswer : t.answer (.makeFolder path) = (.error .missing, t) := by
        simp only [FileTree.answer, FileTree.vacant, hmissing]
        rfl
      obtain ⟨hok, hmade⟩ := ih (h.of_prefix hinto) (hclear.of_prefix hinto)
      rw [run_ask, hanswer, run_bind, hok]
      have hclear' := hmade.isClear hclear
      rw [← hfront] at hmade
      obtain ⟨hok', hlast⟩ : ((makeLast path).run ((makeFolders outer).run t).2).1 = .ok () ∧
          Furnished ((makeFolders outer).run t).2
            ((makeLast path).run ((makeFolders outer).run t).2).2 path :=
        run_makeFolder hne (h.congr hmade.root) hclear' hmade.stands rfl rfl
      exact ⟨hok', hmade.last hlast⟩

/-! ## One call on a tree -/

/-- The answer to a put, by how publishing its text ended. -/
def told (key : String) : Except FileFault Unit → Except ContentFault Unit
  | .ok () => .ok ()
  | .error .occupied => .error (.alreadyExists key)
  | .error f => .error (fault f)

theorem told_error_ne_ok (key : String) (f : FileFault) : told key (.error f) ≠ .ok () := by
  cases f <;> exact nofun

theorem put_eq {key : String} (staged : Path) (body : String) (mode : PutMode)
    (hkey : isKey key = true) :
    put key staged body mode = (makeFolders (segments key).dropLast.reverse).bind fun
      | .error f => .done (.error (fault f))
      | .ok () => .ask (.write staged (encode body)) fun
        | .error f => .ask (.remove staged) fun _ => .done (.error (fault f))
        | .ok () => (publish staged (segments key) mode).bind fun published =>
          .done (told key published) := by
  rw [put, hkey]
  refine congrArg (Program.bind _) (funext fun made => ?_)
  rcases made with fault | ⟨⟩
  · rfl
  · refine Program.ask_congr fun written => ?_
    rcases written with fault | ⟨⟩
    · rfl
    · refine congrArg (Program.bind (publish staged (segments key) mode))
        (funext fun published => ?_)
      rcases published with fault | ⟨⟩
      · cases fault <;> rfl
      · rfl

/-- The text that bytes under a key stand for. -/
def textOf (key : String) (bytes : List UInt8) : Except ContentFault String :=
  match decode? bytes with
  | some body => .ok body
  | none => .error (.encoding key)

/-- The answer to a get, by how reading its file ended. -/
def gotten (key : String) : Except FileFault (List UInt8) → Except ContentFault String
  | .error .missing => .error (.notFound key)
  | .error f => .error (fault f)
  | .ok bytes => textOf key bytes

/-- A get that gives a text has read its bytes. -/
theorem decode?_of_gotten {key body : String} {read : Except FileFault (List UInt8)}
    (h : gotten key read = .ok body) : ∃ bytes, read = .ok bytes ∧ decode? bytes = some body := by
  rcases read with fault | bytes
  · cases fault <;> exact nomatch h
  · rw [gotten, textOf] at h
    cases htext : decode? bytes with
    | some text =>
      rw [htext] at h
      exact ⟨bytes, rfl, htext.trans (congrArg some (Except.ok.inj h))⟩
    | none =>
      rw [htext] at h
      exact nomatch h

theorem get_eq {key : String} (hkey : isKey key = true) :
    get key = .ask (.read (segments key)) fun read => .done (gotten key read) := by
  rw [get, hkey]
  refine Program.ask_congr fun read => ?_
  rcases read with fault | bytes
  · cases fault <;> rfl
  · change (match decode? bytes with
      | some body => Program.done (Except.ok body)
      | none => Program.done (Except.error (ContentFault.encoding key))) = .done (textOf key bytes)
    unfold textOf
    cases decode? bytes <;> rfl

/-- A get does not give a text before it has read one. -/
theorem get_ne_done_ok (key body : String) : get key ≠ .done (.ok body) := by
  by_cases hkey : isKey key = true
  · rw [get_eq hkey]
    exact nofun
  · rw [get, Bool.eq_false_iff.mpr hkey]
    exact nofun

/-- The answer to a delete, by how removing its file ended. -/
def erased : Except FileFault Unit → Except ContentFault Unit
  | .ok () => .ok ()
  | .error .missing => .ok ()
  | .error f => .error (fault f)

theorem delete_eq {key : String} (hkey : isKey key = true) :
    delete key = .ask (.remove (segments key)) fun removed => .done (erased removed) := by
  rw [delete, hkey]
  refine Program.ask_congr fun removed => ?_
  rcases removed with fault | ⟨⟩
  · cases fault <;> rfl
  · rfl

/-! ## Publishing a staged text -/

theorem publish_createOnly (staged target : Path) :
    publish staged target .createOnly = .ask (.link staged target) fun linked =>
      .ask (.remove staged) fun _ => .done linked := rfl

theorem publish_overwrite (staged target : Path) :
    publish staged target .overwrite = .ask (.move staged target) fun
      | .ok () => .done (.ok ())
      | .error f => .ask (.remove staged) fun _ => .done (.error f) := by
  refine Program.ask_congr fun moved => ?_
  rcases moved with fault | ⟨⟩ <;> rfl

/-- A text is staged, and the folder of its target stands. -/
structure Staged (t : FileTree) (staged target : Path) (bytes : List UInt8) : Prop where
  walkable_staged : t.Walkable staged
  stands_staged : t.Stands staged.dropLast
  node?_staged : t.node? staged = some (.file bytes)
  walkable_target : t.Walkable target
  stands_target : t.Stands target.dropLast
  not_folder : t.node? target ≠ some .folder
  ne : target ≠ staged

namespace Staged

variable {t : FileTree} {staged target : Path} {bytes : List UInt8}

theorem target_ne_nil (h : Staged t staged target bytes) : target ≠ [] := by
  rintro rfl
  exact h.not_folder rfl

theorem staged_ne_nil (h : Staged t staged target bytes) : staged ≠ [] := by
  rintro rfl
  exact nomatch h.node?_staged

theorem find_staged (h : Staged t staged target bytes) :
    t.find staged = .ok (some (.file bytes)) := by
  rw [FileTree.find_of_stands h.walkable_staged h.stands_staged, h.node?_staged]

theorem find_target (h : Staged t staged target bytes) : t.find target = .ok (t.node? target) :=
  FileTree.find_of_stands h.walkable_target h.stands_target

/-- The text is still staged when its target is linked. -/
theorem find_staged_insert (h : Staged t staged target bytes) (node : Node) :
    (t.insert target node).find staged = .ok (some (.file bytes)) := by
  have hstands : (t.insert target node).Stands staged.dropLast := by
    intro q hq
    rw [FileTree.node?_insert h.target_ne_nil]
    split_ifs with htarget
    · exact absurd (h.stands_staged target (htarget ▸ hq)) h.not_folder
    · exact h.stands_staged q hq
  have hwalkable : (t.insert target node).Walkable staged := h.walkable_staged.congr rfl
  rw [FileTree.find_of_stands hwalkable hstands, FileTree.node?_insert h.target_ne_nil,
    if_neg h.ne.symm, h.node?_staged]

/-- Publishing puts the text under its target, unless it may only create and something is there
    already, and clears the staged file either way. -/
theorem run_publish (h : Staged t staged target bytes) (mode : PutMode) :
    ((publish staged target mode).run t).1 =
        (if mode = .createOnly ∧ (t.node? target).isSome then .error .occupied else .ok ()) ∧
      ((publish staged target mode).run t).2.rootLength = t.rootLength ∧
      ∀ q, ((publish staged target mode).run t).2.node? q =
        if q = staged then none
        else if q = target ∧ ¬ (mode = .createOnly ∧ (t.node? target).isSome) then
          some (.file bytes)
        else t.node? q := by
  cases mode with
  | createOnly =>
    have hfind := h.find_target
    rw [publish_createOnly, run_ask]
    cases hnode : t.node? target with
    | none =>
      rw [hnode] at hfind
      have hlink := FileTree.answer_link_of_vacant h.find_staged hfind
      have hremove := FileTree.answer_remove_of_file (h.find_staged_insert (.file bytes))
      rw [hlink, run_ask, hremove, run_done]
      refine ⟨by simp, rfl, fun q => ?_⟩
      rw [FileTree.node?_erase h.staged_ne_nil, FileTree.node?_insert h.target_ne_nil]
      simp
    | some node =>
      rw [hnode] at hfind
      have hlink := FileTree.answer_link_of_occupied h.find_staged hfind
      have hremove := FileTree.answer_remove_of_file h.find_staged
      rw [hlink, run_ask, hremove, run_done]
      refine ⟨by simp, rfl, fun q => ?_⟩
      rw [FileTree.node?_erase h.staged_ne_nil]
      simp
  | overwrite =>
    have hmove := FileTree.answer_move_of_file h.find_staged h.find_target h.not_folder
    rw [publish_overwrite, run_ask, hmove, run_done]
    refine ⟨by simp, rfl, fun q => ?_⟩
    rw [FileTree.node?_insert h.target_ne_nil, FileTree.node?_erase h.staged_ne_nil]
    by_cases htarget : q = target
    · rw [if_pos htarget, htarget, if_neg h.ne]
      simp
    · simp [htarget]

end Staged

/-! ## Trees that stand for maps -/

/-- A key that can be a file of a store: no name on the way to it and no path is too long, and it
    does not lie among the staged files. -/
structure KeyFits (rootLength : Nat) (key : String) : Prop where
  isKey : isKey key = true
  walkable : (empty rootLength).Walkable (segments key)
  outside : (segments key).head? ≠ some staging

instance (rootLength : Nat) (key : String) : Decidable (KeyFits rootLength key) :=
  decidable_of_iff (Content.isKey key = true ∧ (empty rootLength).Walkable (segments key) ∧
    (segments key).head? ≠ some staging)
    ⟨fun h => ⟨h.1, h.2.1, h.2.2⟩, fun h => ⟨h.isKey, h.walkable, h.outside⟩⟩

/-- Keys that can all be files of one store: each of them fits, and none of them would have to be a
    folder around another one. -/
structure KeysFit (rootLength : Nat) (K : Set String) : Prop where
  fits : ∀ key ∈ K, KeyFits rootLength key
  apart : ∀ key ∈ K, ∀ key' ∈ K, segments key <+: segments key' → segments key = segments key'

/-- The number of bytes that a staged file adds to the path of the root. -/
def stagedLength : Nat := 42

/-- There is room for the staged files. -/
theorem walkable_staged {rootLength : Nat}
    (hroom : rootLength + stagedLength ≤ FileTree.longestPath) {name : String}
    (hname : FileTree.IsName name) (hshort : name.utf8ByteSize ≤ 36) :
    (empty rootLength).Walkable [staging, name] := by
  constructor
  · simp only [List.mem_cons, List.not_mem_nil, or_false, forall_eq_or_imp, forall_eq]
    exact ⟨⟨by decide, by decide⟩, hname⟩
  · have hstaging : staging.utf8ByteSize = 4 := rfl
    rw [stagedLength] at hroom
    simp only [FileTree.lengthOf, empty, List.foldl_cons, List.foldl_nil, hstaging]
    omega

theorem isName_text (u : Uuid) : FileTree.IsName u.text := by
  refine ⟨by rw [u.utf8ByteSize_text]; decide, ?_⟩
  rw [Uuid.toList_text]
  exact Uuid.notMem_render (by decide)

/-- The tree keeps the texts of a map under the keys of a set. Nothing is staged, and the folders
    around a text stand; no file is where a folder may have to be made. -/
structure Represents (rootLength : Nat) (K : Set String) (t : FileTree) (m : Map) : Prop where
  root : t.rootLength = rootLength
  kept : ∀ key ∈ K, t.node? (segments key) = (m key).map fun body => .file (encode body)
  clear : ∀ key ∈ K, t.IsClear (segments key).dropLast
  stands : ∀ key ∈ K, (m key).isSome → t.Stands (segments key).dropLast
  staging : t.node? [staging] = some .folder
  unstaged : ∀ name, t.node? [FileStore.staging, name] = none

namespace KeyFits

variable {rootLength : Nat} {key : String}

/-- No path of the staged files leads to the key or around it. -/
theorem not_prefix (h : KeyFits rootLength key) (names : List String) :
    ¬ FileStore.staging :: names <+: segments key := by
  rintro ⟨rest, hrest⟩
  apply h.outside
  rw [← hrest]
  rfl

theorem ne (h : KeyFits rootLength key) (names : List String) :
    FileStore.staging :: names ≠ segments key :=
  fun heq => h.not_prefix names (heq ▸ List.prefix_rfl)

theorem not_prefix_dropLast (h : KeyFits rootLength key) (names : List String) :
    ¬ FileStore.staging :: names <+: (segments key).dropLast :=
  fun hin => h.not_prefix names (hin.trans (List.dropLast_prefix _))

end KeyFits

/-- No folder that may have to be made around a key is in the place of a key. -/
theorem KeysFit.ne {rootLength : Nat} {K : Set String} (hK : KeysFit rootLength K)
    {key key' : String} (hkey : key ∈ K) (hkey' : key' ∈ K) {q : Path}
    (hq : q <+: (segments key').dropLast) : q ≠ segments key := by
  rintro rfl
  have heq := hK.apart key hkey key' hkey' (hq.trans (List.dropLast_prefix _))
  have hlength := hq.length_le
  have hne := List.length_pos_iff.mpr (segments_ne_nil key')
  rw [heq, List.length_dropLast] at hlength
  omega

namespace Represents

variable {rootLength : Nat} {K : Set String} {t t' : FileTree} {m : Map} {key : String}

theorem congr (h : Represents rootLength K t m) (hroot : t'.rootLength = t.rootLength)
    (hnode : ∀ q, t'.node? q = t.node? q) : Represents rootLength K t' m where
  root := hroot.trans h.root
  kept key hkey := by rw [hnode, h.kept key hkey]
  clear key hkey q hq bytes := by
    rw [hnode]
    exact h.clear key hkey q hq bytes
  stands key hkey hsome q hq := by
    rw [hnode]
    exact h.stands key hkey hsome q hq
  staging := by rw [hnode, h.staging]
  unstaged name := by rw [hnode, h.unstaged]

/-- It does not matter which folders were made around a key. -/
theorem furnished (h : Represents rootLength K t m) (hK : KeysFit rootLength K) (hkey : key ∈ K)
    (hmade : Furnished t t' (segments key).dropLast) : Represents rootLength K t' m where
  root := hmade.root.trans h.root
  kept key' hkey' := by
    rw [hmade.node?, if_neg fun hq => hK.ne hkey' hkey hq rfl, h.kept key' hkey']
  clear key' hkey' := hmade.isClear (h.clear key' hkey')
  stands key' hkey' hsome q hq := by
    rw [hmade.node?]
    split_ifs
    · rfl
    · exact h.stands key' hkey' hsome q hq
  staging := by
    rw [hmade.node?, if_neg ((hK.fits key hkey).not_prefix_dropLast []), h.staging]
  unstaged name := by
    rw [hmade.node?, if_neg ((hK.fits key hkey).not_prefix_dropLast [name]), h.unstaged]

/-- Where the folders around a key stand, its text can be written or cleared. -/
theorem update (h : Represents rootLength K t m) (hK : KeysFit rootLength K) (hkey : key ∈ K)
    (body? : Option String) (hstands : body?.isSome → t.Stands (segments key).dropLast)
    (hroot : t'.rootLength = t.rootLength)
    (hnode : ∀ q, t'.node? q =
      if q = segments key then body?.map fun body => .file (encode body) else t.node? q) :
    Represents rootLength K t' (Function.update m key body?) where
  root := hroot.trans h.root
  kept key' hkey' := by
    rw [hnode, Function.update_apply]
    by_cases heq : key' = key
    · rw [if_pos heq, if_pos (congrArg segments heq)]
    · rw [if_neg heq, if_neg (segments_injective.ne heq), h.kept key' hkey']
  clear key' hkey' q hq bytes := by
    rw [hnode, if_neg (hK.ne hkey hkey' hq)]
    exact h.clear key' hkey' q hq bytes
  stands key' hkey' hsome q hq := by
    rw [hnode, if_neg (hK.ne hkey hkey' hq)]
    rw [Function.update_apply] at hsome
    split_ifs at hsome with heq
    · exact hstands hsome q (heq ▸ hq)
    · exact h.stands key' hkey' hsome q hq
  staging := by
    rw [hnode, if_neg ((hK.fits key hkey).ne []), h.staging]
  unstaged name := by
    rw [hnode, if_neg ((hK.fits key hkey).ne [name]), h.unstaged]

/-- The walk to a key finds its text, or ends where a folder is missing around a key without
    text. -/
theorem file_eq (h : Represents rootLength K t m) (hK : KeysFit rootLength K) (hkey : key ∈ K) :
    (∃ body, m key = some body ∧ t.find (segments key) = .ok (some (.file (encode body)))) ∨
      (m key = none ∧ t.file (segments key) = .error .missing) := by
  have hwalkable : t.Walkable (segments key) := (hK.fits key hkey).walkable.congr h.root
  have hkept := h.kept key hkey
  rcases FileTree.find_cases hwalkable (h.clear key hkey) with ⟨-, hfind⟩ | ⟨hnot, hmissing⟩
  · cases hbody : m key with
    | some body => exact Or.inl ⟨body, rfl, by rw [hfind, hkept, hbody]; rfl⟩
    | none =>
      rw [hkept, hbody] at hfind
      exact Or.inr ⟨rfl, FileTree.file_of_vacant hfind⟩
  · refine Or.inr ⟨?_, FileTree.file_of_missing hmissing⟩
    by_contra hbody
    exact hnot (h.stands key hkey (Option.isSome_iff_ne_none.mpr hbody))

/-- A get finds the text of its key. -/
theorem run_get (h : Represents rootLength K t m) (hK : KeysFit rootLength K) (hkey : key ∈ K) :
    (get key).run t = ((m.answer (.get key)).1, t) := by
  have hread : t.answer (.read (segments key)) = (t.file (segments key), t) := rfl
  have hisKey := (hK.fits key hkey).isKey
  rw [get_eq hisKey, run_ask, hread]
  rcases h.file_eq hK hkey with ⟨body, hbody, hfind⟩ | ⟨hnone, hfile⟩
  · have hfile : t.file (segments key) = .ok (encode body) := by
      rw [FileTree.file, hfind]
    rw [hfile, Map.answer_get hisKey hbody, run_done, gotten, textOf, decode?_encode]
  · rw [hfile, Map.answer_get_of_none hisKey hnone, run_done, gotten]

/-- A delete clears its key. -/
theorem run_delete (h : Represents rootLength K t m) (hK : KeysFit rootLength K) (hkey : key ∈ K) :
    ((delete key).run t).1 = .ok () ∧
      Represents rootLength K ((delete key).run t).2 (Function.update m key none) := by
  have hne : segments key ≠ [] := segments_ne_nil key
  rw [delete_eq (hK.fits key hkey).isKey, run_ask]
  rcases h.file_eq hK hkey with ⟨body, -, hfind⟩ | ⟨hnone, hfile⟩
  · rw [FileTree.answer_remove_of_file hfind, run_done]
    refine ⟨rfl, h.update hK hkey none (fun hsome => nomatch hsome) rfl fun q => ?_⟩
    rw [FileTree.node?_erase hne]
    rfl
  · rw [FileTree.answer_remove_of_missing hfile, run_done]
    refine ⟨rfl, ?_⟩
    rw [← hnone, Function.update_eq_self]
    exact h

/-- A staged text is ready to be published under a key around which the folders stand. -/
theorem staged (h : Represents rootLength K t m) (hK : KeysFit rootLength K) (hkey : key ∈ K)
    (hfolders : t.Stands (segments key).dropLast) {name : String}
    (hname : t.Walkable [FileStore.staging, name]) (bytes : List UInt8) :
    Staged (t.insert [FileStore.staging, name] (.file bytes)) [FileStore.staging, name]
      (segments key) bytes := by
  have hfits := hK.fits key hkey
  have hne : [FileStore.staging, name] ≠ [] := List.cons_ne_nil _ _
  refine ⟨hname.congr rfl, fun q hq => ?_, ?_, ?_, fun q hq => ?_, ?_, (hfits.ne [name]).symm⟩
  · have hshort : q ≠ [FileStore.staging, name] := by
      rintro rfl
      exact absurd hq.length_le (by simp)
    rw [FileTree.node?_insert hne, if_neg hshort]
    exact FileTree.stands_singleton h.staging q hq
  · rw [FileTree.node?_insert hne, if_pos rfl]
  · have hwalkable : t.Walkable (segments key) := hfits.walkable.congr h.root
    exact hwalkable.congr rfl
  · have hother : q ≠ [FileStore.staging, name] := by
      rintro rfl
      exact hfits.not_prefix_dropLast [name] hq
    rw [FileTree.node?_insert hne, if_neg hother]
    exact hfolders q hq
  · rw [FileTree.node?_insert hne, if_neg (hfits.ne [name]).symm, h.kept key hkey]
    cases m key <;> exact nofun

/-- A put does what a put does to the map. -/
theorem run_put (h : Represents rootLength K t m) (hK : KeysFit rootLength K) (hkey : key ∈ K)
    {name : String} (hname : (empty rootLength).Walkable [FileStore.staging, name]) (body : String)
    (mode : PutMode) :
    ((put key [FileStore.staging, name] body mode).run t).1 =
        (m.answer (.put key body mode)).1 ∧
      Represents rootLength K ((put key [FileStore.staging, name] body mode).run t).2
        (m.answer (.put key body mode)).2 := by
  have hfits := hK.fits key hkey
  have hwalkable : t.Walkable (segments key) := hfits.walkable.congr h.root
  have hfront : t.Walkable (segments key).dropLast.reverse.reverse := by
    rw [List.reverse_reverse]
    exact hwalkable.of_prefix (List.dropLast_prefix _)
  have hclear : t.IsClear (segments key).dropLast.reverse.reverse := by
    rw [List.reverse_reverse]
    exact h.clear key hkey
  -- First the folders around the key are made.
  obtain ⟨hmade, hfurnished⟩ := run_makeFolders _ hfront hclear
  rw [List.reverse_reverse] at hfurnished
  rw [put_eq _ _ _ hfits.isKey, run_bind, hmade]
  generalize ((makeFolders (segments key).dropLast.reverse).run t).2 = t₁ at *
  have h₁ := h.furnished hK hkey hfurnished
  -- Then the text is staged.
  have hstaged : t₁.Walkable [FileStore.staging, name] := hname.congr h₁.root
  have hvacant : t₁.find [FileStore.staging, name] = .ok none := by
    rw [FileTree.find_of_stands hstaged (FileTree.stands_singleton h₁.staging), h₁.unstaged]
  dsimp only
  rw [run_ask, FileTree.answer_write_of_vacant hvacant]
  -- And then it is published, unless it is refused.
  have hready := h₁.staged hK hkey hfurnished.stands hstaged (encode body)
  have hother := (hfits.ne [name]).symm
  have hthere : (t₁.insert [FileStore.staging, name] (.file (encode body))).node? (segments key) =
      (m key).map fun body => .file (encode body) := by
    rw [FileTree.node?_insert (List.cons_ne_nil _ _), if_neg hother, h₁.kept key hkey]
  obtain ⟨hpublished, hroot, hnode⟩ := hready.run_publish mode
  rw [run_bind, run_done, hpublished]
  generalize ((publish [FileStore.staging, name] (segments key) mode).run
    (t₁.insert [FileStore.staging, name] (.file (encode body)))).2 = t' at *
  rw [hthere, Option.isSome_map] at hnode ⊢
  have hclean : ∀ q, t'.node? q =
      if q = segments key ∧ ¬ (mode = .createOnly ∧ (m key).isSome) then
        some (.file (encode body))
      else t₁.node? q := by
    intro q
    rw [hnode, FileTree.node?_insert (List.cons_ne_nil _ _)]
    by_cases hq : q = [FileStore.staging, name]
    · have hnot : ¬ (q = segments key ∧ ¬ (mode = .createOnly ∧ (m key).isSome)) :=
        fun hthis => hfits.ne [name] (hq.symm.trans hthis.1)
      rw [if_pos hq, if_neg hnot, hq, h₁.unstaged]
    · rw [if_neg hq, if_neg hq]
  by_cases hrefused : mode = .createOnly ∧ (m key).isSome
  · rw [if_pos hrefused, Map.answer_put_of_refused hfits.isKey hrefused]
    refine ⟨rfl, h₁.congr hroot fun q => ?_⟩
    rw [hclean, if_neg fun hthis => hthis.2 hrefused]
  · rw [if_neg hrefused, Map.answer_put_of_free hfits.isKey hrefused]
    refine ⟨rfl, h₁.update hK hkey (some body) (fun _ => hfurnished.stands) hroot fun q => ?_⟩
    rw [hclean]
    simp only [hrefused, not_false_eq_true, and_true, Option.map_some]

/-- Every call on a tree that stands for a map is answered as the map answers it, whatever name its
    staged file has, and leaves a tree that stands for the map after the call. -/
theorem program_run (h : Represents rootLength K t m) (hK : KeysFit rootLength K)
    {name : String} (hname : (empty rootLength).Walkable [FileStore.staging, name]) (call : Call)
    (hcall : call.key ∈ K) :
    ((program [FileStore.staging, name] call).run t).1 = (m.answer call).1 ∧
      Represents rootLength K ((program [FileStore.staging, name] call).run t).2
        (m.answer call).2 := by
  cases call with
  | put key body mode => exact h.run_put hK hcall hname body mode
  | get key =>
    have hget : (program [FileStore.staging, name] (.get key)).run t =
        ((m.answer (.get key)).1, t) := h.run_get hK hcall
    rw [hget, Map.answer_get_snd]
    exact ⟨rfl, h⟩
  | delete key =>
    rw [Map.answer_delete_of_isKey (hK.fits key hcall).isKey]
    exact h.run_delete hK hcall

end Represents

/-- In the tree of a new store there is the folder of staged files only. -/
theorem node?_empty {rootLength : Nat} {q : Path} (hstaging : q ≠ [staging]) (hnil : q ≠ []) :
    (empty rootLength).node? q = none := by
  have hroot : q.isEmpty = false := List.isEmpty_eq_false_iff.mpr hnil
  have hne : (q == [staging]) = false := beq_eq_false_iff_ne.mpr hstaging
  simp [FileTree.node?, empty, hroot, List.lookup_cons, hne]

/-- The tree of a new store stands for the map without texts. -/
theorem represents_empty {rootLength : Nat} {K : Set String} (hK : KeysFit rootLength K) :
    Represents rootLength K (empty rootLength) fun _ => none where
  root := rfl
  kept key hkey := node?_empty ((hK.fits key hkey).ne []).symm (segments_ne_nil key)
  clear key hkey q hq bytes := by
    by_cases hnil : q = []
    · rw [hnil]
      exact nofun
    · rw [node?_empty (fun heq => (hK.fits key hkey).not_prefix_dropLast [] (heq ▸ hq)) hnil]
      exact nofun
  stands _ _ hsome := nomatch hsome
  staging := rfl
  unstaged name := node?_empty (by simp) (List.cons_ne_nil _ _)

end FileStore

end ContestPlatform.Content
