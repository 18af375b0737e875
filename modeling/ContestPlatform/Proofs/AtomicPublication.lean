import ContestPlatform.Proofs.FileSharing
import ContestPlatform.Proofs.UuidText

/-!
# Texts are published as a whole

However calls on one tree of files interleave and fail, a text is seen as a whole or not at all.
What stands under a key outside the folder of staged files was published there, so a get gives the
whole body of a put of its key. A put that may only create publishes where nothing stands, so two of
them succeed on one key only if a delete removes the first text in between. And a staged file belongs
to a put that is not done, so no file is left behind when all calls are.
-/

namespace ContestPlatform.Content.FileStore

open Text.Utf8 (encode)

/-! ## What an effect keeps -/

/-- What can become of what stands under a path outside the folder of staged files. -/
inductive Fate (id : Uuid) (call : Call) (news : List Event) (path : Path) :
    Option Node → Option Node → Prop where
  | kept {there : Option Node} : Fate id call news path there there
  /-- A folder is made where there was nothing. -/
  | folder : Fate id call news path none (some .folder)
  /-- A text is published, and in a create-only put where there was nothing. -/
  | published {key body : String} {mode : PutMode} {there : Option Node} (hpath : path = segments key)
      (hcall : call = .put key body mode) (hnew : Event.published id key body mode ∈ news)
      (hcreate : mode = .createOnly → there = none) :
      Fate id call news path there (some (.file (encode body)))
  | deleted {key : String} {there : Option Node} (hpath : path = segments key)
      (hcall : call = .delete key) (hnew : Event.deleted id key ∈ news) :
      Fate id call news path there none

namespace Effect

variable {id : Uuid} {call : Call} {t t' : FileTree} {news : List Event}

theorem root (h : Effect id call t t' news) : t'.rootLength = t.rootLength := by
  cases h <;> rfl

/-- In the folder of staged files, only the staged file of the call itself changes. -/
theorem node?_staging (h : Effect id call t t' news)
    (houtside : (segments call.key).head? ≠ some staging) {rest : Path} (hne : rest ≠ [id.text]) :
    t'.node? (staging :: rest) = t.node? (staging :: rest) := by
  have hother : ∀ {path : Path}, path.head? ≠ some staging → staging :: rest ≠ path := by
    rintro _ hpath rfl
    exact hpath rfl
  have hstaged : staging :: rest ≠ [staging, id.text] := fun heq => hne (List.cons.inj heq).2
  have hnil : [staging, id.text] ≠ [] := List.cons_ne_nil _ _
  cases h with
  | idle => rfl
  | folder hsilent hpath hvacant =>
    rw [FileTree.node?_insert (FileTree.ne_nil_of_vacant hvacant), if_neg (hother hpath)]
  | staged => rw [FileTree.node?_insert hnil, if_neg hstaged]
  | cleared => rw [FileTree.node?_erase hnil, if_neg hstaged]
  | @created key _ hcall =>
    subst hcall
    have hkey : (segments key).head? ≠ some staging := houtside
    rw [FileTree.node?_insert (segments_ne_nil key), if_neg (hother hkey)]
  | @replaced key _ hcall =>
    subst hcall
    have hkey : (segments key).head? ≠ some staging := houtside
    rw [FileTree.node?_insert (segments_ne_nil key), if_neg (hother hkey),
      FileTree.node?_erase hnil, if_neg hstaged]
  | @deleted key hcall =>
    subst hcall
    have hkey : (segments key).head? ≠ some staging := houtside
    rw [FileTree.node?_erase (segments_ne_nil key), if_neg (hother hkey)]

/-- What becomes of what stands under a path outside. -/
theorem fate (h : Effect id call t t' news) {path : Path} (houtside : path.head? ≠ some staging) :
    Fate id call news path (t.node? path) (t'.node? path) := by
  have hstaged : path ≠ [staging, id.text] := (staged_ne_of_outside houtside).symm
  have hnil : [staging, id.text] ≠ [] := List.cons_ne_nil _ _
  cases h with
  | idle => exact .kept
  | folder hsilent hpath hvacant =>
    rw [FileTree.node?_insert (FileTree.ne_nil_of_vacant hvacant)]
    split_ifs with hq
    · rw [hq, hvacant]
      exact .folder
    · exact .kept
  | staged =>
    rw [FileTree.node?_insert hnil, if_neg hstaged]
    exact .kept
  | cleared =>
    rw [FileTree.node?_erase hnil, if_neg hstaged]
    exact .kept
  | created hcall hvacant =>
    rw [FileTree.node?_insert (segments_ne_nil _)]
    split_ifs with hq
    · exact .published hq hcall List.mem_cons_self fun _ => hq ▸ hvacant
    · exact .kept
  | replaced hcall =>
    rw [FileTree.node?_insert (segments_ne_nil _), FileTree.node?_erase hnil, if_neg hstaged]
    split_ifs with hq
    · exact .published hq hcall List.mem_cons_self nofun
    · exact .kept
  | deleted hcall =>
    rw [FileTree.node?_erase (segments_ne_nil _)]
    split_ifs with hq
    · exact .deleted hq hcall List.mem_cons_self
    · exact .kept

/-- A staged file lies where it can be found. -/
theorem walkable (h : Effect id call t t' news)
    (houtside : (segments call.key).head? ≠ some staging)
    (hold : t.node? [staging, id.text] ≠ none → t.Walkable [staging, id.text])
    (hthere : t'.node? [staging, id.text] ≠ none) : t'.Walkable [staging, id.text] := by
  have hnil : [staging, id.text] ≠ [] := List.cons_ne_nil _ _
  suffices hwalkable : t.Walkable [staging, id.text] from hwalkable.congr h.root
  cases h with
  | idle => exact hold hthere
  | folder hsilent hpath hvacant =>
    rw [FileTree.node?_insert (FileTree.ne_nil_of_vacant hvacant),
      if_neg (staged_ne_of_outside hpath)] at hthere
    exact hold hthere
  | staged hwalkable => exact hwalkable
  | cleared =>
    rw [FileTree.node?_erase hnil, if_pos rfl] at hthere
    exact absurd rfl hthere
  | @created key _ hcall =>
    subst hcall
    have hkey : (segments key).head? ≠ some staging := houtside
    rw [FileTree.node?_insert (segments_ne_nil key),
      if_neg (staged_ne_of_outside hkey)] at hthere
    exact hold hthere
  | @replaced key _ hcall =>
    subst hcall
    have hkey : (segments key).head? ≠ some staging := houtside
    rw [FileTree.node?_insert (segments_ne_nil key), if_neg (staged_ne_of_outside hkey),
      FileTree.node?_erase hnil, if_pos rfl] at hthere
    exact absurd rfl hthere
  | @deleted key hcall =>
    subst hcall
    have hkey : (segments key).head? ≠ some staging := houtside
    rw [FileTree.node?_erase (segments_ne_nil key),
      if_neg (staged_ne_of_outside hkey)] at hthere
    exact hold hthere

/-- A text outside stood there before, or it was published. -/
theorem file_outside (h : Effect id call t t' news) {path : Path}
    (houtside : path.head? ≠ some staging) {bytes : List UInt8}
    (hfile : t'.node? path = some (.file bytes)) :
    t.node? path = some (.file bytes) ∨ ∃ key body mode, path = segments key ∧
      bytes = encode body ∧ Event.published id key body mode ∈ news := by
  have hfate := h.fate houtside
  rw [hfile] at hfate
  generalize t.node? path = there at hfate ⊢
  cases hfate with
  | kept => exact Or.inl rfl
  | published hpath hcall hnew hcreate => exact Or.inr ⟨_, _, _, hpath, rfl, hnew⟩

/-- A text stays under its key, if only another one in its place, until it is deleted. -/
theorem file_stays (h : Effect id call t t' news) {key : String}
    (houtside : (segments key).head? ≠ some staging) {bytes : List UInt8}
    (hfile : t.node? (segments key) = some (.file bytes)) :
    (∃ bytes, t'.node? (segments key) = some (.file bytes)) ∨ Event.deleted id key ∈ news := by
  have hfate := h.fate houtside
  rw [hfile] at hfate
  generalize t'.node? (segments key) = there at hfate ⊢
  cases hfate with
  | kept => exact Or.inl ⟨bytes, rfl⟩
  | published => exact Or.inl ⟨_, rfl⟩
  | deleted hpath hcall hnew =>
    cases segments_injective hpath
    exact Or.inr hnew

/-- What is published stands under its key; where a put may only create, nothing stood there. -/
theorem of_published (h : Effect id call t t' news) {id' : Uuid} {key body : String} {mode : PutMode}
    (hnew : Event.published id' key body mode ∈ news) :
    t'.node? (segments key) = some (.file (encode body)) ∧
      (mode = .createOnly → t.node? (segments key) = none) := by
  cases h with
  | idle hsilent => exact absurd rfl ((hsilent _ hnew).not_published id' key body mode)
  | folder hsilent => exact absurd rfl ((hsilent _ hnew).not_published id' key body mode)
  | staged => exact nomatch hnew
  | cleared hsilent => exact absurd rfl ((hsilent _ hnew).not_published id' key body mode)
  | created hcall hvacant =>
    have hevent := List.mem_singleton.mp hnew
    cases mode with
    | createOnly =>
      cases hevent
      refine ⟨?_, fun _ => hvacant⟩
      rw [FileTree.node?_insert (segments_ne_nil key), if_pos rfl]
    | overwrite => exact nomatch hevent
  | replaced hcall =>
    have hevent := List.mem_singleton.mp hnew
    cases mode with
    | createOnly => exact nomatch hevent
    | overwrite =>
      cases hevent
      refine ⟨?_, nofun⟩
      rw [FileTree.node?_insert (segments_ne_nil key), if_pos rfl]
  | deleted hcall =>
    have hevent := List.mem_singleton.mp hnew
    cases mode <;> exact nomatch hevent

/-- A put that may only create changes nothing that is there. -/
theorem node?_stays (h : Effect id call t t' news) {key body : String}
    (hcall : call = .put key body .createOnly) {path : Path}
    (houtside : path.head? ≠ some staging) {node : Node} (hnode : t.node? path = some node) :
    t'.node? path = some node := by
  have hfate := h.fate houtside
  rw [hnode] at hfate
  generalize t'.node? path = there at hfate ⊢
  cases hfate with
  | kept => rfl
  | published hpath hcall' hnew hcreate =>
    cases hcall.symm.trans hcall'
    exact nomatch hcreate rfl
  | deleted hpath hcall' => exact nomatch hcall.symm.trans hcall'

end Effect

/-! ## Tasks -/

/-- A task that is done. -/
def Task.IsOver (task : Task) : Prop :=
  ∃ result, task.place = .at_ (.done result)

/-- A step remembers at most one file call. -/
theorem Move.length_news {t t' : FileTree} {task task' : Task} {news : List Event}
    (h : Move t task task' t' news) : news.length ≤ 1 := by
  cases h with
  | answered | trouble => exact Nat.le_refl 1
  | opened | piece | finished | broke => exact Nat.zero_le 1

/-- What a step remembers is about the call that makes it. -/
theorem Move.call_of_mem {t t' : FileTree} {task task' : Task} {news : List Event}
    (h : Move t task task' t' news) {e : Event} (he : e ∈ news) : e.call = task.call := by
  cases h with
  | answered | trouble =>
    rw [List.mem_singleton.mp he]
  | opened | piece | finished | broke => exact nomatch he

/-- Steps that keep away from the staged file of a task leave it where it was. -/
theorem Task.Sound.congr {t t' : FileTree} {log : List Event} {task : Task} (h : task.Sound t log)
    (hsame : t'.node? [staging, task.id.text] = t.node? [staging, task.id.text])
    (news : List Event) : task.Sound t' (log ++ news) := by
  obtain ⟨id, call, place⟩ := task
  cases call with
  | put key body mode =>
    cases place with
    | at_ rest =>
      obtain ⟨held, published, hheld, hpublished, hfollows⟩ := h
      exact ⟨held, published, hheld.congr hsame,
        fun htrue => List.mem_append_left _ (hpublished htrue), hfollows⟩
    | writing path rest next =>
      obtain ⟨rfl, ⟨written, hwritten, hbytes⟩, published, hpublished, hfollows⟩ := h
      exact ⟨rfl, ⟨written, hsame.trans hwritten, hbytes⟩, published,
        fun htrue => List.mem_append_left _ (hpublished htrue), hfollows⟩
  | get key =>
    refine ⟨hsame.trans h.1, h.2.imp_right ?_⟩
    rintro ⟨result, hplace, hbody⟩
    refine ⟨result, hplace, fun body hresult => ?_⟩
    obtain ⟨id', mode, hevent⟩ := hbody body hresult
    exact ⟨id', mode, List.mem_append_left _ hevent⟩
  | delete key => exact ⟨hsame.trans h.1, h.2⟩

/-- A task that is done holds no staged file. -/
theorem Task.Sound.node?_of_isOver {t : FileTree} {log : List Event} {task : Task}
    (h : task.Sound t log) (hover : task.IsOver) : t.node? [staging, task.id.text] = none := by
  obtain ⟨id, call, place⟩ := task
  obtain ⟨result, hplace⟩ : ∃ result, place = .at_ (.done result) := hover
  subst hplace
  cases call with
  | put key body mode =>
    obtain ⟨held, published, hheld, -, rfl, -⟩ := h
    exact hheld
  | get key => exact h.1
  | delete key => exact h.1

/-! ## What always holds -/

section Lists

variable {α β : Type}

/-- An entry that is replaced by one of the same name leaves the names as they are. -/
theorem map_set_of_getElem? {f : α → β} {l : List α} {i : Nat} {a a' : α} (h : l[i]? = some a)
    (hname : f a' = f a) : (l.set i a').map f = l.map f := by
  refine List.ext_getElem? fun j => ?_
  rw [List.getElem?_map, List.getElem?_map, List.getElem?_set]
  split_ifs with hij hi
  · rw [← hij, h, Option.map_some, Option.map_some, hname]
  · rw [← hij, List.getElem?_eq_none (Nat.not_lt.mp hi)]
  · rfl

/-- An entry of a list in which one was replaced is the new one, or an old one of another name. -/
theorem mem_set_cases {f : α → β} {l : List α} {i : Nat} {a a' x : α} (hnames : (l.map f).Nodup)
    (h : l[i]? = some a) (hx : x ∈ l.set i a') : x = a' ∨ x ∈ l ∧ f x ≠ f a := by
  obtain ⟨j, hj⟩ := List.mem_iff_getElem?.mp hx
  by_cases hij : i = j
  · subst hij
    rw [List.getElem?_set_self (List.getElem?_eq_some_iff.mp h).1] at hj
    exact Or.inl (Option.some.inj hj).symm
  · rw [List.getElem?_set_ne hij] at hj
    refine Or.inr ⟨List.mem_of_getElem? hj, fun hname => hij ?_⟩
    have hi : i < (l.map f).length := by
      rw [List.length_map]
      exact (List.getElem?_eq_some_iff.mp h).1
    refine (List.getElem?_inj hi hnames).mp ?_
    rw [List.getElem?_map, List.getElem?_map, h, hj, Option.map_some, Option.map_some, hname]

/-- Of two entries of a longer list in their order, either both are in the list or only the first
    one is. -/
theorem sublist_append_cases {a b : α} {l news : List α} (hnews : news.length ≤ 1)
    (h : [a, b].Sublist (l ++ news)) : [a, b].Sublist l ∨ a ∈ l ∧ b ∈ news := by
  obtain ⟨l₁, l₂, hsplit, h₁, h₂⟩ := List.sublist_append_iff.mp h
  rcases l₁ with - | ⟨x, - | ⟨y, - | ⟨z, rest⟩⟩⟩
  · -- Both would be new, and there is at most one new entry.
    rw [List.nil_append] at hsplit
    subst hsplit
    exact absurd (h₂.length_le.trans hnews) (by simp)
  · simp only [List.cons_append, List.nil_append, List.cons.injEq] at hsplit
    obtain ⟨rfl, rfl⟩ := hsplit
    exact Or.inr ⟨List.singleton_sublist.mp h₁, List.singleton_sublist.mp h₂⟩
  · simp only [List.cons_append, List.nil_append, List.cons.injEq] at hsplit
    obtain ⟨rfl, rfl, -⟩ := hsplit
    exact Or.inl h₁
  · simp at hsplit

/-- Two entries of a list stand in one order or in the other. -/
theorem sublist_pair_of_mem {a b : α} {l : List α} (ha : a ∈ l) (hb : b ∈ l) (hne : a ≠ b) :
    [a, b].Sublist l ∨ [b, a].Sublist l := by
  induction l with
  | nil => exact nomatch ha
  | cons x rest ih =>
    rcases List.mem_cons.mp ha with rfl | ha
    · have hrest := (List.mem_cons.mp hb).resolve_left hne.symm
      exact Or.inl (List.cons_sublist_cons.mpr (List.singleton_sublist.mpr hrest))
    · rcases List.mem_cons.mp hb with rfl | hb
      · have hrest := (List.mem_cons.mp ha).resolve_left hne
        exact Or.inr (List.cons_sublist_cons.mpr (List.singleton_sublist.mpr hrest))
      · exact (ih ha hb).imp (List.Sublist.cons x) (List.Sublist.cons x)

end Lists

/-- What holds between any two steps. -/
structure Inv (P : Pool) : Prop where
  distinct : (P.tasks.map Task.id).Nodup
  outside : ∀ task ∈ P.tasks, (segments task.call.key).head? ≠ some staging
  sound : ∀ task ∈ P.tasks, task.Sound P.tree P.log
  staging : P.tree.node? [staging] = some .folder
  /-- Below the folder of staged files there are only files of tasks. -/
  owned : ∀ rest, rest ≠ [] → P.tree.node? (FileStore.staging :: rest) ≠ none →
    ∃ id ∈ P.tasks.map Task.id, rest = [id.text]
  walkable : ∀ name, P.tree.node? [FileStore.staging, name] ≠ none →
    P.tree.Walkable [FileStore.staging, name]
  contents : Contents P.tree P.log
  logged : ∀ e ∈ P.log, (segments e.call.key).head? ≠ some FileStore.staging
  /-- A text that was published is there, or one in its place, or a delete has removed it. -/
  present : ∀ id key body mode, Event.published id key body mode ∈ P.log →
    (∃ bytes, P.tree.node? (segments key) = some (.file bytes)) ∨
      ∃ id', [Event.published id key body mode, Event.deleted id' key].Sublist P.log
  /-- A text is created after another one only if a delete has removed that one. -/
  apart : ∀ id id' key body body' mode,
    [Event.published id key body mode, Event.published id' key body' .createOnly].Sublist P.log →
      ∃ id'', [Event.published id key body mode, Event.deleted id'' key,
        Event.published id' key body' .createOnly].Sublist P.log

private theorem node?_initial {rootLength : Nat} {rest : List String} (hrest : rest ≠ []) :
    (empty rootLength).node? (staging :: rest) = none :=
  node?_empty (fun heq => hrest (List.cons.inj heq).2) (List.cons_ne_nil _ _)

theorem Inv.initial (rootLength : Nat) : Inv (Pool.initial rootLength) where
  distinct := List.nodup_nil
  outside := nofun
  sound := nofun
  staging := rfl
  owned rest hrest hthere := absurd (node?_initial hrest) hthere
  walkable name hthere := absurd (node?_initial (List.cons_ne_nil _ _)) hthere
  contents path bytes houtside hfile := by
    have hnil : path ≠ [] := by
      rintro rfl
      exact nomatch hfile
    have hstaging : path ≠ [FileStore.staging] := by
      rintro rfl
      exact houtside rfl
    exact nomatch (node?_empty hstaging hnil).symm.trans hfile
  logged := nofun
  present := nofun
  apart _ _ _ _ _ _ h := nomatch h

namespace Inv

variable {P : Pool}

/-- A call is begun under a name of its own. -/
theorem begin_ (hinv : Inv P) {id : Uuid} {call : Call} (hfresh : ∀ task ∈ P.tasks, task.id ≠ id)
    (houtside : (segments call.key).head? ≠ some FileStore.staging) :
    Inv { P with
      tasks := P.tasks ++ [⟨id, call, .at_ (program [FileStore.staging, id.text] call)⟩] } := by
  have hnone : P.tree.node? [FileStore.staging, id.text] = none := by
    by_contra hthere
    obtain ⟨id', hid', htext⟩ := hinv.owned [id.text] (List.cons_ne_nil _ _) hthere
    obtain ⟨task, htask, rfl⟩ := List.mem_map.mp hid'
    have hsame := Uuid.text_injective (List.cons.inj htext).1
    exact hfresh task htask hsame.symm
  have hnew : Task.Sound P.tree P.log
      ⟨id, call, .at_ (program [FileStore.staging, id.text] call)⟩ := by
    cases call with
    | put key body mode =>
      exact ⟨.nothing, false, hnone, nofun, follows_put _ key body mode houtside⟩
    | get key => exact ⟨hnone, Or.inl rfl⟩
    | delete key => exact ⟨hnone, Or.inl rfl⟩
  refine { hinv with distinct := ?_, outside := ?_, sound := ?_, owned := ?_ }
  · rw [List.map_append]
    refine List.nodup_append.mpr ⟨hinv.distinct, by simp, ?_⟩
    intro id' hold id'' hid'
    obtain ⟨task, htask, rfl⟩ := List.mem_map.mp hold
    rw [List.mem_singleton.mp hid']
    exact hfresh task htask
  · intro task htask
    rcases List.mem_append.mp htask with hold | hnew
    · exact hinv.outside task hold
    · rw [List.mem_singleton.mp hnew]
      exact houtside
  · intro task htask
    rcases List.mem_append.mp htask with hold | hlast
    · exact hinv.sound task hold
    · rw [List.mem_singleton.mp hlast]
      exact hnew
  · intro rest hrest hthere
    obtain ⟨id', hid', htext⟩ := hinv.owned rest hrest hthere
    refine ⟨id', ?_, htext⟩
    rw [List.map_append]
    exact List.mem_append_left _ hid'

/-- What a step of a task does to the tree, and that the task is where it can be afterwards. -/
theorem effect (hinv : Inv P) {task task' : Task} {t' : FileTree} {news : List Event}
    (htask : task ∈ P.tasks) (hmove : Move P.tree task task' t' news) :
    Effect task.id task.call P.tree t' news ∧ task'.id = task.id ∧ task'.call = task.call ∧
      task'.Sound t' (P.log ++ news) := by
  have hsound := hinv.sound task htask
  have houtside := hinv.outside task htask
  have hstands := FileTree.stands_singleton hinv.staging
  obtain ⟨id, call, place⟩ := task
  cases call with
  | put key body mode =>
    obtain ⟨heffect, place', rfl, hputs⟩ :=
      effect_put hsound hstands (hinv.walkable id.text) houtside hmove
    exact ⟨heffect, rfl, rfl, hputs⟩
  | get key =>
    obtain ⟨⟨rfl, hsilent⟩, place', rfl, hgets⟩ :=
      effect_get hsound.2 hinv.contents houtside hmove
    exact ⟨.idle hsilent, rfl, rfl, hsound.1, hgets⟩
  | delete key =>
    obtain ⟨⟨heffect, hsame⟩, place', rfl, hremoves⟩ := effect_delete hsound.2 houtside hmove
    exact ⟨heffect, rfl, rfl, hsame.trans hsound.1, hremoves⟩

/-- A task makes a step. -/
theorem move (hinv : Inv P) {i : Nat} {task task' : Task} {t' : FileTree} {news : List Event}
    (htask : P.tasks[i]? = some task) (hmove : Move P.tree task task' t' news) :
    Inv ⟨t', P.tasks.set i task', P.log ++ news⟩ := by
  have hmem := List.mem_of_getElem? htask
  obtain ⟨heffect, hid, hcall, hsound⟩ := hinv.effect hmem hmove
  have houtside := hinv.outside task hmem
  have hids : (P.tasks.set i task').map Task.id = P.tasks.map Task.id :=
    map_set_of_getElem? htask hid
  have hothers : ∀ other ∈ P.tasks.set i task',
      other = task' ∨ other ∈ P.tasks ∧ other.id ≠ task.id :=
    fun other hother => mem_set_cases hinv.distinct htask hother
  have hlogged : ∀ e ∈ P.log ++ news, (segments e.call.key).head? ≠ some FileStore.staging := by
    intro e he
    rcases List.mem_append.mp he with hold | hnew
    · exact hinv.logged e hold
    · rw [hmove.call_of_mem hnew]
      exact houtside
  exact {
    distinct := by
      rw [hids]
      exact hinv.distinct
    outside := by
      intro other hother
      rcases hothers other hother with rfl | ⟨hold, -⟩
      · rw [hcall]
        exact houtside
      · exact hinv.outside other hold
    sound := by
      intro other hother
      rcases hothers other hother with rfl | ⟨hold, hne⟩
      · exact hsound
      · refine Task.Sound.congr (hinv.sound other hold) (heffect.node?_staging houtside ?_) news
        exact fun htext => hne (Uuid.text_injective (List.cons.inj htext).1)
    staging := (heffect.node?_staging houtside (List.cons_ne_nil _ _).symm).trans hinv.staging
    owned := by
      intro rest hrest hthere
      rw [hids]
      by_cases hown : rest = [task.id.text]
      · exact ⟨task.id, List.mem_map_of_mem hmem, hown⟩
      · rw [heffect.node?_staging houtside hown] at hthere
        exact hinv.owned rest hrest hthere
    walkable := by
      intro name hthere
      by_cases hown : name = task.id.text
      · subst hown
        exact heffect.walkable houtside (hinv.walkable _) hthere
      · rw [heffect.node?_staging houtside fun h => hown (List.cons.inj h).1] at hthere
        exact (hinv.walkable name hthere).congr heffect.root
    contents := by
      intro path bytes hpath hfile
      rcases heffect.file_outside hpath hfile with hold | ⟨key, body, mode, hkey, hbytes, hnew⟩
      · obtain ⟨id, key, body, mode, hkey, hbytes, hevent⟩ := hinv.contents path bytes hpath hold
        exact ⟨id, key, body, mode, hkey, hbytes, List.mem_append_left _ hevent⟩
      · exact ⟨task.id, key, body, mode, hkey, hbytes, List.mem_append_right _ hnew⟩
    logged := hlogged
    present := by
      intro id key body mode hevent
      have hkey : (segments key).head? ≠ some FileStore.staging := by
        have hlog := hlogged _ hevent
        cases mode <;> exact hlog
      rcases List.mem_append.mp hevent with hold | hnew
      · rcases hinv.present id key body mode hold with ⟨bytes, hfile⟩ | ⟨id', hdeleted⟩
        · rcases heffect.file_stays hkey hfile with hstays | hdelete
          · exact Or.inl hstays
          · exact Or.inr ⟨task.id, List.Sublist.append (List.singleton_sublist.mpr hold)
              (List.singleton_sublist.mpr hdelete)⟩
        · exact Or.inr ⟨id', hdeleted.trans (List.sublist_append_left _ _)⟩
      · exact Or.inl ⟨_, (heffect.of_published hnew).1⟩
    apart := by
      intro id id' key body body' mode hboth
      rcases sublist_append_cases hmove.length_news hboth with hold | ⟨hold, hnew⟩
      · obtain ⟨id'', hdeleted⟩ := hinv.apart id id' key body body' mode hold
        exact ⟨id'', hdeleted.trans (List.sublist_append_left _ _)⟩
      · -- Where the second text is created there is nothing, so the first one was deleted.
        have hvacant := (heffect.of_published hnew).2 rfl
        rcases hinv.present id key body mode hold with ⟨bytes, hfile⟩ | ⟨id'', hdeleted⟩
        · exact nomatch hvacant.symm.trans hfile
        · exact ⟨id'', List.Sublist.append hdeleted (List.singleton_sublist.mpr hnew)⟩ }

theorem step (hinv : Inv P) {P' : Pool} (hstep : Step P P') : Inv P' := by
  cases hstep with
  | begin_ id call hfresh houtside => exact hinv.begin_ hfresh houtside
  | move htask hmove => exact hinv.move htask hmove

theorem of_reachable {rootLength : Nat} (h : Reachable rootLength P) : Inv P := by
  induction h with
  | refl => exact Inv.initial rootLength
  | tail _ hstep hinv => exact hinv.step hstep

end Inv

/-! ## Atomic publication -/

/-- However the calls interleave and fail:

* a get that succeeds gives the whole body of a put of its key that was published;
* if two puts that may only create succeed on one key, a delete has removed the text of the first
  one before the second one was published;
* no step of a put that may only create changes anything that stands outside the folder of staged
  files;
* when all calls are done, nothing is left in that folder. -/
theorem atomic_publication {rootLength : Nat} {P : Pool} (h : Reachable rootLength P) :
    (∀ id key body, (⟨id, .get key, .at_ (.done (.ok body))⟩ : Task) ∈ P.tasks →
      ∃ id' mode, Event.published id' key body mode ∈ P.log) ∧
    (∀ id id' key body body', id ≠ id' →
      (⟨id, .put key body .createOnly, .at_ (.done (.ok ()))⟩ : Task) ∈ P.tasks →
      (⟨id', .put key body' .createOnly, .at_ (.done (.ok ()))⟩ : Task) ∈ P.tasks →
      ∃ id'', [Event.published id key body .createOnly, Event.deleted id'' key,
          Event.published id' key body' .createOnly].Sublist P.log ∨
        [Event.published id' key body' .createOnly, Event.deleted id'' key,
          Event.published id key body .createOnly].Sublist P.log) ∧
    (∀ id key body place task' t' news,
      (⟨id, .put key body .createOnly, place⟩ : Task) ∈ P.tasks →
      Move P.tree ⟨id, .put key body .createOnly, place⟩ task' t' news →
      ∀ path node, path.head? ≠ some staging → P.tree.node? path = some node →
        t'.node? path = some node) ∧
    ((∀ task ∈ P.tasks, task.IsOver) →
      ∀ rest, rest ≠ [] → P.tree.node? (staging :: rest) = none) := by
  have hinv := Inv.of_reachable h
  have hcreated : ∀ id key body,
      (⟨id, .put key body .createOnly, .at_ (.done (.ok ()))⟩ : Task) ∈ P.tasks →
        Event.published id key body .createOnly ∈ P.log := by
    intro id key body htask
    obtain ⟨held, published, -, hpublished, -, hok⟩ := hinv.sound _ htask
    exact hpublished (hok rfl)
  refine ⟨?_, ?_, ?_, ?_⟩
  · intro id key body htask
    rcases (hinv.sound _ htask).2 with hplace | ⟨result, hplace, hbody⟩
    · exact absurd (Place.at_.inj hplace).symm (get_ne_done_ok key body)
    · cases hplace
      exact hbody body rfl
  · intro id id' key body body' hne htask htask'
    have hevents : Event.published id key body .createOnly ≠
        Event.published id' key body' .createOnly :=
      fun heq => hne (congrArg Event.id heq)
    rcases sublist_pair_of_mem (hcreated id key body htask) (hcreated id' key body' htask')
      hevents with hfirst | hfirst
    · obtain ⟨id'', hdeleted⟩ := hinv.apart id id' key body body' .createOnly hfirst
      exact ⟨id'', Or.inl hdeleted⟩
    · obtain ⟨id'', hdeleted⟩ := hinv.apart id' id key body' body .createOnly hfirst
      exact ⟨id'', Or.inr hdeleted⟩
  · intro id key body place task' t' news htask hmove path node houtside hnode
    exact (hinv.effect htask hmove).1.node?_stays rfl houtside hnode
  · intro hover rest hrest
    by_contra hthere
    obtain ⟨id, hid, rfl⟩ := hinv.owned rest hrest hthere
    obtain ⟨task, htask, rfl⟩ := List.mem_map.mp hid
    exact hthere ((hinv.sound task htask).node?_of_isOver (hover task htask))

/-- A call that is begun while nothing is staged and is not interrupted is answered as by the map
    that the tree stands for. -/
theorem serves_alone {rootLength : Nat} {K : Set String} {m m' : Map} (P : Pool) (id : Uuid)
    (call : Call) (hroom : rootLength + stagedLength ≤ FileTree.longestPath)
    (hK : KeysFit rootLength K) (h : Represents rootLength K P.tree m)
    (hfresh : ∀ task ∈ P.tasks, task.id ≠ id) (hcall : call.key ∈ K) {answer : call.Answer}
    (hmap : m.answer call = (answer, m')) :
    ∃ t' log, Relation.ReflTransGen Step P
        ⟨t', P.tasks ++ [⟨id, call, .at_ (.done answer)⟩], log⟩ ∧
      Represents rootLength K t' m' := by
  have hname := walkable_staged hroom (isName_text id) (Uuid.utf8ByteSize_text id).le
  obtain ⟨hanswer, hafter⟩ := h.program_run hK hname call hcall
  rw [hmap] at hanswer hafter
  have hbegun := Step.begin_ P id call hfresh (hK.fits _ hcall).outside
  have htask : (P.tasks ++ [(⟨id, call, .at_ (program [staging, id.text] call)⟩ : Task)])[
      P.tasks.length]? = some ⟨id, call, .at_ (program [staging, id.text] call)⟩ := by simp
  obtain ⟨log, hrun⟩ := runs_alone (P := { P with tasks := _ }) htask
  rw [List.set_append_right _ _ (Nat.le_refl _), Nat.sub_self, hanswer] at hrun
  exact ⟨_, log, .head hbegun hrun, hafter⟩

/-- A put that has created a text. -/
def creation (n : Nat) (body : String) : Task :=
  ⟨.ofNat n, .put "two" body .createOnly, .at_ (.done (.ok ()))⟩

/-- A get that has given a text. -/
def reading (n : Nat) (body : String) : Task :=
  ⟨.ofNat n, .get "two", .at_ (.done (.ok body))⟩

/-- A delete that is done. -/
def deletion (n : Nat) : Task :=
  ⟨.ofNat n, .delete "two", .at_ (.done (.ok ()))⟩

/-- A text is created, read and deleted, and another one is created in its place. -/
private theorem reachable_replaced :
    ∃ t log, Reachable 15
      ⟨t, [creation 1 "first", reading 2 "first", deletion 3, creation 4 "second"], log⟩ := by
  have hroom : 15 + stagedLength ≤ FileTree.longestPath := by decide
  have hK : KeysFit 15 {"two"} := by
    refine ⟨?_, ?_⟩
    · rintro key rfl
      decide
    · rintro key rfl key' rfl -
      rfl
  have hkey : isKey "two" = true := by decide
  obtain ⟨t₁, log₁, hreach₁, h₁⟩ := serves_alone (Pool.initial 15) (.ofNat 1)
    (.put "two" "first" .createOnly) hroom hK (represents_empty hK) nofun rfl
    (Map.answer_put_of_free hkey (by simp))
  have hfresh₂ : ∀ task ∈ [creation 1 "first"], task.id ≠ .ofNat 2 := by decide
  obtain ⟨t₂, log₂, hreach₂, h₂⟩ := serves_alone ⟨t₁, [creation 1 "first"], log₁⟩ (.ofNat 2)
    (.get "two") hroom hK h₁ hfresh₂ rfl (Map.answer_get hkey (Function.update_self ..))
  have hfresh₃ : ∀ task ∈ [creation 1 "first", reading 2 "first"], task.id ≠ .ofNat 3 := by decide
  obtain ⟨t₃, log₃, hreach₃, h₃⟩ := serves_alone
    ⟨t₂, [creation 1 "first", reading 2 "first"], log₂⟩ (.ofNat 3) (.delete "two") hroom hK h₂
    hfresh₃ rfl (Map.answer_delete_of_isKey hkey)
  have hfresh₄ : ∀ task ∈ [creation 1 "first", reading 2 "first", deletion 3],
      task.id ≠ .ofNat 4 := by decide
  obtain ⟨t₄, log₄, hreach₄, -⟩ := serves_alone
    ⟨t₃, [creation 1 "first", reading 2 "first", deletion 3], log₃⟩ (.ofNat 4)
    (.put "two" "second" .createOnly) hroom hK h₃ hfresh₄ rfl
    (Map.answer_put_of_free hkey (by simp))
  exact ⟨t₄, log₄, ((hreach₁.trans hreach₂).trans hreach₃).trans hreach₄⟩

/-- The text that was read was published, it was deleted before the other one was published, and
    nothing is left of the staged files. -/
theorem text_read_and_replaced :
    ∃ P, Reachable 15 P ∧
      (∃ id mode, Event.published id "two" "first" mode ∈ P.log) ∧
      (∃ id, [Event.published (.ofNat 1) "two" "first" .createOnly, Event.deleted id "two",
          Event.published (.ofNat 4) "two" "second" .createOnly].Sublist P.log ∨
        [Event.published (.ofNat 4) "two" "second" .createOnly, Event.deleted id "two",
          Event.published (.ofNat 1) "two" "first" .createOnly].Sublist P.log) ∧
      ∀ rest, rest ≠ [] → P.tree.node? (staging :: rest) = none := by
  obtain ⟨t, log, hreach⟩ := reachable_replaced
  obtain ⟨hgets, hcreates, -, hempty⟩ := atomic_publication hreach
  refine ⟨_, hreach, hgets (.ofNat 2) "two" "first" (by simp [reading]),
    hcreates (.ofNat 1) (.ofNat 4) "two" "first" "second" (by decide) (by simp [creation])
      (by simp [creation]), hempty ?_⟩
  simp only [List.mem_cons, List.not_mem_nil, or_false, forall_eq_or_imp, forall_eq]
  exact ⟨⟨_, rfl⟩, ⟨_, rfl⟩, ⟨_, rfl⟩, ⟨_, rfl⟩⟩

end ContestPlatform.Content.FileStore
