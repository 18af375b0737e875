import ContestPlatform.Proofs.FileSharing
import Mathlib.Data.List.Nodup
import Mathlib.Data.List.Perm.Subperm

/-!
# What a put does to a tree of its own

The folder of a store can have anything in it: files where folders should be, folders where texts
should be, and texts among the staged files. A put makes folders, stages its text and publishes it,
and each of these can fail, because of what stands in the tree or for another reason. However it
ends, the files that it did not have to write are as they were.

`Ensures` says what a call ends with that nothing else shares its tree with. There is one rule for
each kind of file call, and the put is gone through once with them.
-/

namespace ContestPlatform.Content.FileStore

open Text.Utf8 (encode)

/-! ## Calls that nothing else shares the tree with -/

/-- No call leaves a pool. -/
theorem length_tasks_le {P P' : Pool} (h : Relation.ReflTransGen Step P P') :
    P.tasks.length ≤ P'.tasks.length := by
  induction h with
  | refl => exact Nat.le_refl _
  | tail _ hstep ih =>
    cases hstep with
    | begin_ id call hfresh houtside =>
      rw [List.length_append]
      exact Nat.le_add_right_of_le ih
    | move htask hmove =>
      rw [List.length_set]
      exact ih

/-- Where no call is begun, the one call of a pool makes the step. -/
theorem Step.alone {t : FileTree} {task : Task} {log : List Event} {P : Pool}
    (h : Step ⟨t, [task], log⟩ P) (hone : P.tasks.length ≤ 1) :
    ∃ task' t' news, Move t task task' t' news ∧ P = ⟨t', [task'], log ++ news⟩ := by
  cases h with
  | begin_ id call hfresh houtside => simp at hone
  | @move i _ task' t' news htask hmove =>
    obtain ⟨hi, rfl⟩ := List.getElem?_eq_some_iff.mp htask
    obtain rfl : i = 0 := Nat.lt_one_iff.mp hi
    exact ⟨task', t', news, hmove, rfl⟩

/-- However a call goes on in a pool of its own, what it ends with is as it should be. -/
def Ensures (id : Uuid) {call : Call} (Q : call.Answer → FileTree → Prop)
    (place : Place call.Answer) (t : FileTree) : Prop :=
  ∀ log log' result t', Relation.ReflTransGen Step ⟨t, [⟨id, call, place⟩], log⟩
    ⟨t', [⟨id, call, .at_ (.done result)⟩], log'⟩ → Q result t'

namespace Ensures

variable {id : Uuid} {call : Call} {Q : call.Answer → FileTree → Prop} {t : FileTree}

theorem of_done {result : call.Answer} (h : Q result t) :
    Ensures id Q (.at_ (.done result)) t := by
  intro log log' result' t' hrun
  rcases hrun.cases_head with heq | ⟨P, hstep, hrest⟩
  · cases heq
    exact h
  · obtain ⟨task', t₁, news, hmove, -⟩ := hstep.alone (length_tasks_le hrest)
    exact (not_move_of_done hmove).elim

/-- A task that is not done ends as it ends after its first step. -/
theorem of_moves {place : Place call.Answer} (hnot : ∀ result, place ≠ .at_ (.done result))
    (hmoves : ∀ task' t' news, Move t ⟨id, call, place⟩ task' t' news →
      ∃ place', task' = ⟨id, call, place'⟩ ∧ Ensures id Q place' t') : Ensures id Q place t := by
  intro log log' result t' hrun
  rcases hrun.cases_head with heq | ⟨P, hstep, hrest⟩
  · cases heq
    exact absurd rfl (hnot result)
  · obtain ⟨task', t₁, news, hmove, rfl⟩ := hstep.alone (length_tasks_le hrest)
    obtain ⟨place', rfl, hensures⟩ := hmoves task' t₁ news hmove
    exact hensures _ log' result t' hrest

/-- A file call of one step is answered by the tree, or fails without a change. -/
theorem of_ask {asked : FileCall} {next : asked.Answer → FileProgram call.Answer}
    (hwrite : ¬ IsWrite asked)
    (hanswered : Ensures id Q (.at_ (next (t.answer asked).1)) (t.answer asked).2)
    (htrouble : ∀ answer, Fails asked answer → asked ≠ .remove [staging, id.text] →
      Ensures id Q (.at_ (next answer)) t) : Ensures id Q (.at_ (.ask asked next)) t := by
  refine of_moves (by exact nofun) fun task' t' news hmove => ?_
  cases hmove with
  | answered => exact ⟨_, rfl, hanswered⟩
  | trouble hfails hother => exact ⟨_, rfl, htrouble _ hfails hother⟩
  | opened hplace => exact absurd trivial hwrite

/-- The staged file is removed if it is there. -/
theorem of_remove {next : Except FileFault Unit → FileProgram call.Answer}
    (hnext : ∀ answer, Ensures id Q (.at_ (next answer))
      (t.answer (.remove [staging, id.text])).2) :
    Ensures id Q (.at_ (.ask (.remove [staging, id.text]) next)) t :=
  of_ask (fun hwrite => hwrite) (hnext _) fun _ _ hother => absurd rfl hother

section Writing

variable {path : Path} {bytes : List UInt8} {next : Except FileFault Unit → FileProgram call.Answer}

/-- A file that was opened is written as a whole in the end, or any part of it is. -/
theorem of_writing (hpath : path ≠ [])
    (hwhole : Ensures id Q (.at_ (next (.ok ()))) (t.insert path (.file bytes)))
    (hpart : ∀ written fault,
      Ensures id Q (.at_ (next (.error fault))) (t.insert path (.file written)))
    {written rest : List UInt8} (hbytes : written ++ rest = bytes) :
    Ensures id Q (.writing path rest next) (t.insert path (.file written)) := by
  intro log log' result t' hrun
  -- A piece may be empty, so the induction is on the run and not on what is still to come.
  generalize hstart : (⟨t.insert path (.file written), [⟨id, call, .writing path rest next⟩], log⟩ :
    Pool) = start at hrun
  induction hrun using Relation.ReflTransGen.head_induction_on generalizing written rest log with
  | refl => exact nomatch hstart
  | head hstep hrest ih =>
    subst hstart
    obtain ⟨task', t₁, news, hmove, rfl⟩ := hstep.alone (length_tasks_le hrest)
    cases hmove with
    | @piece _ _ _ written' piece rest' _ hfile =>
      rw [FileTree.node?_insert hpath, if_pos rfl] at hfile
      cases hfile
      have hbytes' : (written ++ piece) ++ rest' = bytes := by rw [List.append_assoc, hbytes]
      exact ih hbytes' (log ++ []) (by rw [FileTree.insert_insert])
    | finished =>
      rw [List.append_nil] at hbytes
      subst hbytes
      exact hwhole _ log' result t' hrest
    | broke fault => exact hpart written fault _ log' result t' hrest

/-- A file is written as a whole, in part or not at all. -/
theorem of_write
    (hwhole : t.place path = .ok () →
      Ensures id Q (.at_ (next (.ok ()))) (t.insert path (.file bytes)))
    (hpart : t.place path = .ok () → ∀ written fault,
      Ensures id Q (.at_ (next (.error fault))) (t.insert path (.file written)))
    (hnone : ∀ fault, Ensures id Q (.at_ (next (.error fault))) t) :
    Ensures id Q (.at_ (.ask (.write path bytes) next)) t := by
  refine of_moves (by exact nofun) fun task' t' news hmove => ?_
  cases hmove with
  | answered hwrite => exact absurd trivial hwrite
  | trouble hfails hother =>
    obtain ⟨fault, rfl⟩ := hfails
    exact ⟨_, rfl, hnone fault⟩
  | opened hplace =>
    have hpath : path ≠ [] := by
      rintro rfl
      exact (FileTree.node?_of_place hplace).1 rfl
    exact ⟨_, rfl, of_writing hpath (hwhole hplace) (hpart hplace) rfl⟩

end Writing

/-- What holds however a call goes on holds of it where it meets no trouble. -/
theorem run {p : FileProgram call.Answer} (h : Ensures id Q (.at_ p) t) :
    Q (p.run t).1 (p.run t).2 := by
  have htask : (⟨t, [⟨id, call, .at_ p⟩], []⟩ : Pool).tasks[0]? = some ⟨id, call, .at_ p⟩ := rfl
  obtain ⟨log, hrun⟩ := runs_alone htask
  exact h [] log _ _ hrun

end Ensures

/-! ## What may change -/

/-- Nothing was done to a tree but folders were made on the way to a path. -/
def Paved (t t' : FileTree) (target : Path) : Prop :=
  ∀ q, t'.node? q = t.node? q ∨
    t.node? q = none ∧ t'.node? q = some .folder ∧ q <+: target.dropLast

/-- A folder that was made on the way to a path, with nothing in it but such folders. -/
structure IsBare (t t' : FileTree) (target q : Path) : Prop where
  vacant : t.node? q = none
  folder : t'.node? q = some .folder
  around : q <+: target.dropLast
  bare : ∀ p node, q <+: p → t'.node? p = some node → node = .folder ∧ p <+: target.dropLast

/-- What a put leaves. If it fails, all files are as before, its staged file is gone, and whatever
    else is new is a bare folder on the way to the key. If it succeeds, the text is under the key,
    all other files are as before, and whatever else is new is a folder on the way to the key. -/
def Leaves (t : FileTree) (staged : Path) (key body : String) :
    Except ContentFault Unit → FileTree → Prop
  | .error _, t' =>
    (∀ q bytes, t'.node? q = some (.file bytes) ↔ t.node? q = some (.file bytes)) ∧
      (∀ bytes, t'.node? staged ≠ some (.file bytes)) ∧
      ∀ q, t'.node? q = t.node? q ∨ IsBare t t' (segments key) q
  | .ok (), t' =>
    t'.file (segments key) = .ok (encode body) ∧
      (∀ q bytes, q ≠ segments key →
        (t'.node? q = some (.file bytes) ↔ t.node? q = some (.file bytes))) ∧
      (∀ bytes, staged ≠ segments key → t'.node? staged ≠ some (.file bytes)) ∧
      ∀ q, q ≠ segments key → t'.node? q = t.node? q ∨
        t.node? q = none ∧ t'.node? q = some .folder ∧ q <+: (segments key).dropLast

namespace Paved

variable {t t' t'' : FileTree} {target path : Path}

theorem refl (t : FileTree) (target : Path) : Paved t t target :=
  fun _ => Or.inl rfl

theorem of_node? (h : Paved t t' target) (hsame : ∀ q, t''.node? q = t'.node? q) :
    Paved t t'' target := by
  intro q
  rw [hsame]
  exact h q

theorem insert (h : Paved t t' target) (hvacant : t'.node? path = none)
    (haround : path <+: target.dropLast) : Paved t (t'.insert path .folder) target := by
  intro q
  rw [FileTree.node?_insert (FileTree.ne_nil_of_vacant hvacant)]
  split_ifs with heq
  · subst heq
    rcases h q with hsame | ⟨-, hfolder, -⟩
    · exact Or.inr ⟨hsame.symm.trans hvacant, rfl, haround⟩
    · exact nomatch hvacant.symm.trans hfolder
  · exact h q

/-- No file is made or changed. -/
theorem file_iff (h : Paved t t' target) (q : Path) (bytes : List UInt8) :
    t'.node? q = some (.file bytes) ↔ t.node? q = some (.file bytes) := by
  rcases h q with hsame | ⟨hvacant, hfolder, -⟩
  · rw [hsame]
  · rw [hvacant, hfolder]
    exact ⟨nofun, nofun⟩

/-- What is in a folder that was made was made as well. -/
theorem isBare (h : Paved t t' target) (hrooted : t.IsRooted) {q : Path}
    (hvacant : t.node? q = none) (hfolder : t'.node? q = some .folder)
    (haround : q <+: target.dropLast) : IsBare t t' target q := by
  refine ⟨hvacant, hfolder, haround, fun p node hq hp => ?_⟩
  rcases h p with hsame | ⟨-, hmade, hp'⟩
  · rcases FileTree.prefix_cases hq with rfl | hin
    · exact nomatch hvacant.symm.trans (hsame.symm.trans hfolder)
    · have hthere := hrooted p node (hsame.symm.trans hp) q hin
      exact nomatch hvacant.symm.trans hthere
  · exact ⟨Option.some.inj (hp.symm.trans hmade), hp'⟩

/-- Where there was nothing or a folder, there is no file. -/
theorem not_file (h : Paved t t' target) {q : Path} (hvacant : t.node? q = none)
    (bytes : List UInt8) : t'.node? q ≠ some (.file bytes) := by
  intro hfile
  exact nomatch hvacant.symm.trans ((h.file_iff q bytes).mp hfile)

variable {staged : Path} {key body : String}

/-- A put that fails may have made folders. -/
theorem leaves (h : Paved t t' (segments key)) (hrooted : t.IsRooted)
    (hfree : t.node? staged = none) {result : Except ContentFault Unit} (hfails : result ≠ .ok ()) :
    Leaves t staged key body result t' := by
  cases result with
  | ok done => exact absurd rfl hfails
  | error fault =>
    refine ⟨h.file_iff, h.not_file hfree, fun q => ?_⟩
    rcases h q with hsame | ⟨hvacant, hfolder, haround⟩
    · exact Or.inl hsame
    · exact Or.inr (h.isBare hrooted hvacant hfolder haround)

/-- A put that succeeds has put the text under its key besides. -/
theorem leaves_ok (h : Paved t t' (segments key)) (hfree : t.node? staged = none)
    (hfile : t''.file (segments key) = .ok (encode body))
    (hother : ∀ q, q ≠ segments key → t''.node? q = t'.node? q) :
    Leaves t staged key body (.ok ()) t'' := by
  refine ⟨hfile, fun q bytes hq => ?_, fun bytes hne => ?_, fun q hq => ?_⟩
  · rw [hother q hq, h.file_iff]
  · rw [hother staged hne]
    exact h.not_file hfree bytes
  · rw [hother q hq]
    exact h q

end Paved

/-! ## The steps of a put -/

section Folders

variable {t t₁ : FileTree} {id : Uuid} {call : Call} {Q : call.Answer → FileTree → Prop}
  {target : Path}

/-- Asking for a folder on the way makes it or does nothing. -/
theorem ensures_makeFolder {path : Path} (haround : path <+: target.dropLast)
    {next : Except FileFault Unit → FileProgram call.Answer}
    (hnext : ∀ made t', Paved t t' target → Ensures id Q (.at_ (next made)) t')
    (hpaved : Paved t t₁ target) : Ensures id Q (.at_ (.ask (.makeFolder path) next)) t₁ := by
  refine .of_ask (fun hwrite => hwrite) ?_ fun made _ _ => hnext made t₁ hpaved
  rcases t₁.answer_makeFolder_cases path with ⟨fault, hanswer⟩ | ⟨hfind, hanswer⟩
  · rw [hanswer]
    exact hnext _ _ hpaved
  · rw [hanswer]
    exact hnext _ _ (hpaved.insert (FileTree.node?_of_find hfind).1 haround)

/-- Making the folders on the way makes some of them, however it ends. -/
theorem ensures_makeFolders (names : List String) (haround : names.reverse <+: target.dropLast)
    {rest : Except FileFault Unit → FileProgram call.Answer}
    (hrest : ∀ made t', Paved t t' target → Ensures id Q (.at_ (rest made)) t')
    (hpaved : Paved t t₁ target) : Ensures id Q (.at_ ((makeFolders names).bind rest)) t₁ := by
  induction names generalizing rest t₁ with
  | nil => exact hrest _ _ hpaved
  | cons name outer ih =>
    have houter : outer.reverse <+: target.dropLast := .trans ⟨[name], by simp⟩ haround
    have hstanding : ∀ fault t', Paved t t' target →
        Ensures id Q (.at_ ((orStanding (name :: outer).reverse fault).bind rest)) t' :=
      fun fault t' h => .of_ask (fun hwrite => hwrite) (hrest _ _ h) fun _ _ _ => hrest _ _ h
    rw [makeFolders_cons, Program.ask_bind]
    refine ensures_makeFolder haround (fun made t' h => ?_) hpaved
    rcases made with fault | ⟨⟩
    · cases fault with
      | missing =>
        -- The folders around it are made first, and then it is tried again.
        dsimp only
        rw [Program.bind_assoc]
        refine ih houter (fun around t' h => ?_) h
        rcases around with fault | ⟨⟩
        · exact hrest _ _ h
        · refine ensures_makeFolder haround (fun made t' h => ?_) h
          rcases made with fault | ⟨⟩
          · exact hstanding fault t' h
          · exact hrest _ _ h
      | occupied | notFolder | isFolder | tooLong | nul => exact hstanding _ _ h
    · exact hrest _ _ h

end Folders

section Put

variable {t t₁ : FileTree} {id : Uuid} {key body : String} {mode : PutMode} {bytes : List UInt8}

/-- A tree after folders were made for a key, in which a text may be staged. -/
structure IsStage (t t₁ : FileTree) (id : Uuid) (key : String) : Prop where
  free : t.node? [staging, id.text] = none
  paved : Paved t t₁ (segments key)
  place : t₁.place [staging, id.text] = .ok ()

theorem node?_insert_staged (q : Path) : (t₁.insert [staging, id.text] (.file bytes)).node? q =
    if q = [staging, id.text] then some (.file bytes) else t₁.node? q :=
  FileTree.node?_insert (List.cons_ne_nil _ _)

namespace IsStage

variable (h : IsStage t t₁ id key)
include h

theorem node?_staged : t₁.node? [staging, id.text] = none := by
  rcases h.paved [staging, id.text] with hsame | ⟨-, hfolder, -⟩
  · exact hsame.trans h.free
  · exact absurd hfolder (FileTree.node?_of_place h.place).1

theorem find_staged : (t₁.insert [staging, id.text] (.file bytes)).find [staging, id.text] =
    .ok (some (.file bytes)) := by
  obtain ⟨there, hfind, -⟩ := FileTree.find_of_place h.place
  have hfind' := FileTree.find_of_find (t₁.insert [staging, id.text] (.file bytes)) hfind rfl
    fun q => FileTree.node?_insert_of_folder (FileTree.node?_of_place h.place).1
  rw [hfind', node?_insert_staged, if_pos rfl]

/-- Removing the staged file leaves nothing of it. -/
theorem remove {call : Call} {Q : call.Answer → FileTree → Prop}
    {next : Except FileFault Unit → FileProgram call.Answer} {result : call.Answer}
    (hnext : ∀ answer, next answer = .done result)
    (hQ : ∀ t', Paved t t' (segments key) → Q result t') :
    Ensures id Q (.at_ (.ask (.remove [staging, id.text]) next))
      (t₁.insert [staging, id.text] (.file bytes)) := by
  refine .of_remove fun answer => ?_
  rw [hnext, FileTree.answer_remove_of_file h.find_staged]
  refine .of_done (hQ _ (h.paved.of_node? fun q => ?_))
  rw [FileTree.node?_erase (List.cons_ne_nil _ _), node?_insert_staged]
  split_ifs with hq
  · rw [hq, h.node?_staged]
  · rfl

/-- The put has succeeded where the text is under its key and the staged file is gone. -/
theorem leaves_ok {t' : FileTree} {there : Option Node}
    (hfind : (t₁.insert [staging, id.text] (.file bytes)).find (segments key) = .ok there)
    (hthere : there ≠ some .folder) (hroot : t'.rootLength = t₁.rootLength)
    (hnode : ∀ q, t'.node? q =
      if q = segments key then some (.file (encode body)) else t₁.node? q) :
    Leaves t [staging, id.text] key body (.ok ()) t' := by
  have hfolders : ∀ q, (t₁.insert [staging, id.text] (.file bytes)).node? q = some .folder →
      t'.node? q = some .folder := by
    intro q hq
    have htarget : q ≠ segments key := by
      rintro rfl
      exact hthere ((FileTree.node?_of_find hfind).1.symm.trans hq)
    rw [node?_insert_staged] at hq
    split_ifs at hq with hstaged
    · exact nomatch hq
    · rw [hnode, if_neg htarget, hq]
  have hfile := FileTree.find_of_find t' hfind hroot hfolders
  rw [hnode, if_pos rfl] at hfile
  refine h.paved.leaves_ok h.free ?_ fun q hq => ?_
  · rw [FileTree.file, hfile]
  · rw [hnode, if_neg hq]

/-- A text is linked, and its staged file is removed. -/
theorem ensures_linked
    (hfind : (t₁.insert [staging, id.text] (.file (encode body))).find (segments key) = .ok none) :
    @Ensures id (.put key body mode) (Leaves t [staging, id.text] key body)
      (.at_ (.ask (.remove [staging, id.text]) fun _ => .done (.ok ())))
      ((t₁.insert [staging, id.text] (.file (encode body))).insert (segments key)
        (.file (encode body))) := by
  have hkey : segments key ≠ [] := segments_ne_nil key
  have hvacant := (FileTree.node?_of_find hfind).1
  have hne : [staging, id.text] ≠ segments key := by
    intro heq
    rw [← heq, node?_insert_staged, if_pos rfl] at hvacant
    exact nomatch hvacant
  have hstaged := FileTree.find_of_find ((t₁.insert [staging, id.text] (.file (encode body))).insert
    (segments key) (.file (encode body))) h.find_staged rfl
    fun q => FileTree.node?_insert_of_folder fun hfolder => nomatch hvacant.symm.trans hfolder
  rw [FileTree.node?_insert hkey, if_neg hne, node?_insert_staged, if_pos rfl] at hstaged
  refine .of_remove fun answer => ?_
  rw [FileTree.answer_remove_of_file hstaged]
  refine .of_done (h.leaves_ok hfind nofun rfl fun q => ?_)
  rw [FileTree.node?_erase (List.cons_ne_nil _ _), FileTree.node?_insert hkey, node?_insert_staged]
  by_cases hq : q = [staging, id.text]
  · rw [if_pos hq, hq, if_neg hne, h.node?_staged]
  · rw [if_neg hq, if_neg hq]

/-- A text is moved to its key, over a file that stands there. -/
theorem leaves_moved
    (hplace : (t₁.insert [staging, id.text] (.file (encode body))).place (segments key) = .ok ()) :
    Leaves t [staging, id.text] key body (.ok ())
      (((t₁.insert [staging, id.text] (.file (encode body))).erase [staging, id.text]).insert
        (segments key) (.file (encode body))) := by
  obtain ⟨there, hfind, hthere⟩ := FileTree.find_of_place hplace
  refine h.leaves_ok hfind hthere rfl fun q => ?_
  rw [FileTree.node?_insert (segments_ne_nil key), FileTree.node?_erase (List.cons_ne_nil _ _),
    node?_insert_staged]
  by_cases hq : q = [staging, id.text]
  · rw [if_pos hq, hq, h.node?_staged]
  · rw [if_neg hq, if_neg hq]

/-- Publishing a staged text puts it under its key, or leaves nothing of it. -/
theorem ensures_publish (hrooted : t.IsRooted) :
    @Ensures id (.put key body mode) (Leaves t [staging, id.text] key body)
      (.at_ ((publish [staging, id.text] (segments key) mode).bind fun published =>
        .done (told key published)))
      (t₁.insert [staging, id.text] (.file (encode body))) := by
  have hfailed : ∀ (fault : FileFault) t', Paved t t' (segments key) →
      Leaves t [staging, id.text] key body (told key (.error fault)) t' :=
    fun fault t' hpaved => hpaved.leaves hrooted h.free (told_error_ne_ok key fault)
  cases mode with
  | createOnly =>
    rw [publish_createOnly]
    refine .of_ask (fun hwrite => hwrite) ?_ fun linked hfails _ => ?_
    · rcases FileTree.answer_link_cases (t₁.insert [staging, id.text] (.file (encode body)))
          [staging, id.text] (segments key) with ⟨fault, hanswer⟩ | ⟨text, hsource, hfind, hanswer⟩
      · rw [hanswer]
        exact h.remove (fun _ => rfl) (hfailed fault)
      · cases h.find_staged.symm.trans hsource
        rw [hanswer]
        exact h.ensures_linked hfind
    · obtain ⟨fault, rfl⟩ := hfails
      exact h.remove (fun _ => rfl) (hfailed fault)
  | overwrite =>
    rw [publish_overwrite]
    refine .of_ask (fun hwrite => hwrite) ?_ fun moved hfails _ => ?_
    · rcases FileTree.answer_move_cases (t₁.insert [staging, id.text] (.file (encode body)))
          [staging, id.text] (segments key) with ⟨fault, hanswer⟩ | ⟨text, hsource, hplace, hanswer⟩
      · rw [hanswer]
        exact h.remove (fun _ => rfl) (hfailed fault)
      · cases h.find_staged.symm.trans hsource
        rw [hanswer]
        exact .of_done (h.leaves_moved hplace)
    · obtain ⟨fault, rfl⟩ := hfails
      exact h.remove (fun _ => rfl) (hfailed fault)

end IsStage

/-- Where no text could be staged, there is no staged file. -/
theorem ensures_unstaged (hrooted : t.IsRooted) (hfree : t.node? [staging, id.text] = none)
    (hpaved : Paved t t₁ (segments key)) {fault : FileFault} :
    @Ensures id (.put key body mode) (Leaves t [staging, id.text] key body)
      (.at_ (.ask (.remove [staging, id.text]) fun _ => .done (.error (FileStore.fault fault))))
      t₁ := by
  refine .of_remove fun answer => .of_done ?_
  rcases t₁.answer_remove_cases [staging, id.text] with
    ⟨fault, -, hanswer⟩ | ⟨text, hfind, hanswer⟩
  · rw [hanswer]
    exact hpaved.leaves hrooted hfree (by simp)
  · exact absurd (FileTree.node?_of_find hfind).1 (hpaved.not_file hfree text)

/-- However a put goes, it leaves what it has to. -/
theorem ensures_put (hrooted : t.IsRooted) (hfree : t.node? [staging, id.text] = none) :
    @Ensures id (.put key body mode) (Leaves t [staging, id.text] key body)
      (.at_ (put key [staging, id.text] body mode)) t := by
  by_cases hkey : isKey key = true
  · rw [put_eq _ _ _ hkey]
    refine ensures_makeFolders _ ?_ (fun made t₁ hpaved => ?_) (.refl t (segments key))
    · rw [List.reverse_reverse]
    · rcases made with fault | ⟨⟩
      · exact .of_done (hpaved.leaves hrooted hfree (by simp))
      · refine .of_write (fun hplace => ?_) (fun hplace written fault => ?_) fun fault => ?_
        · exact IsStage.ensures_publish ⟨hfree, hpaved, hplace⟩ hrooted
        · exact IsStage.remove ⟨hfree, hpaved, hplace⟩ (fun _ => rfl) fun t' hpaved' =>
            hpaved'.leaves hrooted hfree (by simp)
        · exact ensures_unstaged hrooted hfree hpaved
  · have hinvalid : put key [staging, id.text] body mode = .done (.error (.invalidKey key)) := by
      rw [put, Bool.eq_false_iff.mpr hkey]
      rfl
    rw [hinvalid]
    exact .of_done ((Paved.refl t (segments key)).leaves hrooted hfree (by simp))

end Put

/-! ## Names of staged files -/

/-- A path under which something stands is that of an entry. -/
theorem mem_entries_of_node? {t : FileTree} {path : Path} (hpath : path ≠ [])
    (h : t.node? path ≠ none) : path ∈ t.entries.map Prod.fst := by
  by_contra hnot
  apply h
  have hempty : path.isEmpty = false := List.isEmpty_eq_false_iff.mpr hpath
  rw [FileTree.node?, hempty]
  refine List.lookup_eq_none_iff.mpr fun e he => ?_
  simp only [bne_iff_ne, ne_eq]
  rintro rfl
  exact hnot (List.mem_map_of_mem he)

/-- Different numbers below 2^128 give different paths for a staged file. -/
theorem staged_inj {m n : Nat} (hm : m < 2 ^ 128) (hn : n < 2 ^ 128)
    (h : [staging, (Uuid.ofNat m).text] = [staging, (Uuid.ofNat n).text]) : m = n := by
  have hid := Uuid.text_injective (List.cons.inj (List.cons.inj h).2).1
  have hbits : m % 2 ^ 128 = n % 2 ^ 128 := congrArg Uuid.toNat hid
  rwa [Nat.mod_eq_of_lt hm, Nat.mod_eq_of_lt hn] at hbits

/-- A store finds a name for its staged file that is not in use and not on the way to the key, unless
    there are as many files as names. -/
theorem exists_freshStaged (t : FileTree) (target : Path)
    (hroom : t.entries.length + 2 ≤ 2 ^ 128) :
    ∃ id : Uuid, freshStaged t target = [staging, id.text] ∧
      t.node? [staging, id.text] = none ∧ [staging, id.text] ≠ target.take 2 := by
  unfold freshStaged
  cases hfind : List.find? (fun path => (t.node? path).isNone && path != target.take 2)
      ((List.range (t.entries.length + 2)).map fun n => [staging, (Uuid.ofNat n).text]) with
  | some path =>
    obtain ⟨n, -, rfl⟩ := List.mem_map.mp (List.mem_of_find?_eq_some hfind)
    have hfresh := List.find?_some hfind
    simp only [Bool.and_eq_true, Option.isNone_iff_eq_none, bne_iff_ne] at hfresh
    exact ⟨Uuid.ofNat n, by simp only [hfind, Option.getD_some], hfresh⟩
  | none =>
    -- All candidates would be paths to avoid, and there are not as many of these.
    exfalso
    have hnodup : ((List.range (t.entries.length + 2)).map fun n =>
        [staging, (Uuid.ofNat n).text]).Nodup := by
      refine List.nodup_range.map_on fun m hm n hn h => ?_
      exact staged_inj ((List.mem_range.mp hm).trans_le hroom)
        ((List.mem_range.mp hn).trans_le hroom) h
    have havoid : ((List.range (t.entries.length + 2)).map fun n =>
        [staging, (Uuid.ofNat n).text]) ⊆ target.take 2 :: t.entries.map Prod.fst := by
      intro path hpath
      have hused := List.find?_eq_none.mp hfind path hpath
      obtain ⟨n, -, rfl⟩ := List.mem_map.mp hpath
      by_cases htarget : [staging, (Uuid.ofNat n).text] = target.take 2
      · exact htarget ▸ List.mem_cons_self
      · refine List.mem_cons_of_mem _ (mem_entries_of_node? (List.cons_ne_nil _ _) fun hnone => ?_)
        simp [hnone, htarget] at hused
    have hlength := (hnodup.subperm havoid).length_le
    simp at hlength

/-! ## Puts -/

/-- The tree of a new store is rooted. -/
theorem isRooted_empty (rootLength : Nat) : (empty rootLength).IsRooted := by
  intro path node h
  by_cases hstaging : path = [staging]
  · subst hstaging
    exact fun q hq => by rw [List.prefix_nil.mp hq, FileTree.node?_nil]
  · by_cases hnil : path = []
    · subst hnil
      exact fun q hq => by rw [List.prefix_nil.mp hq, FileTree.node?_nil]
    · exact nomatch (node?_empty hstaging hnil).symm.trans h

/-- No program uproots a tree. -/
theorem isRooted_run {α : Type} (p : FileProgram α) {t : FileTree} (h : t.IsRooted) :
    (p.run t).2.IsRooted := by
  induction p generalizing t with
  | done a => exact h
  | ask asked next ih => exact ih _ (h.answer asked)

/-- A put on any tree leaves alone what it does not have to write: however it goes, whatever fails on
    its way but the removal of its staged file, and whatever unused name this file has. -/
theorem put_leaves {t : FileTree} (hrooted : t.IsRooted) {id : Uuid}
    (hfree : t.node? [staging, id.text] = none) (key body : String) (mode : PutMode) :
    (∀ log log' result t', Relation.ReflTransGen Step
        ⟨t, [⟨id, .put key body mode, .at_ (put key [staging, id.text] body mode)⟩], log⟩
        ⟨t', [⟨id, .put key body mode, .at_ (.done result)⟩], log'⟩ →
      Leaves t [staging, id.text] key body result t') ∧
    Leaves t [staging, id.text] key body ((put key [staging, id.text] body mode).run t).1
      ((put key [staging, id.text] body mode).run t).2 ∧
    (t.entries.length + 2 ≤ 2 ^ 128 →
      Leaves t (freshStaged t (segments key)) key body (answer t (.put key body mode)).1
        (answer t (.put key body mode)).2) := by
  refine ⟨ensures_put hrooted hfree, (ensures_put hrooted hfree).run, fun hroom => ?_⟩
  obtain ⟨id', hstaged, hfree', -⟩ := exists_freshStaged t (segments key) hroom
  have hanswer : answer t (.put key body mode) =
      (put key (freshStaged t (segments key)) body mode).run t := rfl
  rw [hanswer, hstaged]
  exact (ensures_put hrooted hfree').run

/-- A tree with one text. -/
def someTree : FileTree :=
  (FileTree.answer (empty 15) (.write ["code"] [49])).2

/-- A text cannot be put in a folder in whose place there is a file; the file is as before. -/
theorem put_leaves_file_on_the_way :
    (answer someTree (.put "code/one" "x" .overwrite)).1 = .error (fault .occupied) ∧
      ∀ q bytes, (answer someTree (.put "code/one" "x" .overwrite)).2.node? q = some (.file bytes) ↔
        someTree.node? q = some (.file bytes) := by
  have hrooted : someTree.IsRooted := (isRooted_empty 15).answer _
  have hfree : someTree.node? [staging, (Uuid.ofNat 1).text] = none := by decide
  have hfails : (answer someTree (.put "code/one" "x" .overwrite)).1 = .error (fault .occupied) := by
    decide
  have hleaves := (put_leaves hrooted hfree "code/one" "x" .overwrite).2.2 (by decide)
  rw [hfails] at hleaves
  exact ⟨hfails, hleaves.1⟩

end ContestPlatform.Content.FileStore
