import ContestPlatform.Content.Bucket
import ContestPlatform.Content.Memory
import ContestPlatform.Proofs.FileTexts
import ContestPlatform.Proofs.Footprints
import Mathlib.Data.List.Infix

/-!
# Where keys lead

A key becomes a file by being put behind the path of a root, and the operating system then walks
that path: a dot stays, two dots go up, and empty segments do not count. `resolve` is that walk, for
any path. What is checked of a key is exactly what keeps the walk from doing any of this
(`isKey_iff_leadsDown`), so a key leads to the place below the root that its segments spell, and no
two keys lead to the same place. A text that is no key is refused by every store before anything is
touched.
-/

namespace ContestPlatform.Content

/-! ## Walks -/

/-- One step of a walk. Two dots stay at the root of the file system. -/
def walkStep (here : Path) (name : String) : Path :=
  if name = "" ∨ name = "." then here
  else if name = ".." then here.dropLast
  else here ++ [name]

/-- Where a walk along names ends. -/
def walk (start : Path) (names : List String) : Path :=
  names.foldl walkStep start

/-- A path that begins at the root of the file system. -/
def IsAbsolute (path : String) : Prop :=
  path.toList.head? = some '/'

instance (path : String) : Decidable (IsAbsolute path) :=
  inferInstanceAs (Decidable (path.toList.head? = some '/'))

/-- The place that a path leads to from a folder. -/
def resolve (folder : Path) (path : String) : Path :=
  walk (if IsAbsolute path then [] else folder) (segments path)

/-- A path behind a root. A slash comes between them unless the root ends with one, and an absolute
    path takes the place of the root. -/
def join (root path : String) : String :=
  if IsAbsolute path then path
  else if root = "" ∨ root.toList.getLast? = some '/' then root ++ path
  else root ++ "/" ++ path

/-- Behind every root a text leads down along its segments, each of which counts. -/
def LeadsDown (key : String) : Prop :=
  ∀ folder root, resolve folder (join root key) = resolve folder root ++ segments key

variable {here folder : Path} {names : List String} {name root key : String}

theorem walkStep_of_not_forbidden (h : isForbidden name = false) :
    walkStep here name = here ++ [name] := by
  simp only [isForbidden, Bool.or_eq_false_iff, beq_eq_false_iff_ne] at h
  obtain ⟨⟨hempty, hdot⟩, hdots⟩ := h
  rw [walkStep, if_neg (not_or.mpr ⟨hempty, hdot⟩), if_neg hdots]

theorem length_walkStep_of_forbidden (h : isForbidden name = true) :
    (walkStep here name).length ≤ here.length := by
  simp only [isForbidden, Bool.or_eq_true, beq_iff_eq] at h
  unfold walkStep
  split_ifs with hstay hup
  · exact Nat.le_refl _
  · rw [List.length_dropLast]
    exact Nat.sub_le _ 1
  · exact absurd h (not_or.mpr ⟨hstay, hup⟩)

theorem length_walk_le (here : Path) (names : List String) :
    (walk here names).length ≤ here.length + names.length := by
  induction names generalizing here with
  | nil => exact Nat.le_refl _
  | cons name rest ih =>
    have hrest := ih (walkStep here name)
    have hstep : (walkStep here name).length ≤ here.length + 1 := by
      cases hname : isForbidden name with
      | true => exact Nat.le_succ_of_le (length_walkStep_of_forbidden hname)
      | false =>
        rw [walkStep_of_not_forbidden hname, List.length_append]
        exact Nat.le_refl _
    rw [walk, List.foldl_cons, List.length_cons]
    rw [walk] at hrest
    omega

/-- A walk goes down by every one of its names if and only if none of them is forbidden. -/
theorem walk_eq_append_iff :
    walk here names = here ++ names ↔ ∀ name ∈ names, isForbidden name = false := by
  induction names generalizing here with
  | nil => simp [walk]
  | cons name rest ih =>
    rw [List.forall_mem_cons, walk, List.foldl_cons, ← walk]
    cases hname : isForbidden name with
    | false =>
      have hassoc : here ++ name :: rest = (here ++ [name]) ++ rest := by simp
      rw [walkStep_of_not_forbidden hname, hassoc, ih]
      simp
    | true =>
      -- The walk falls behind at this name and cannot catch up.
      refine iff_of_false (fun heq => ?_) (fun h => nomatch h.1)
      have hlength := length_walk_le (walkStep here name) rest
      have hshort : (walkStep here name).length ≤ here.length :=
        length_walkStep_of_forbidden hname
      rw [heq, List.length_append, List.length_cons] at hlength
      omega

/-! ## Keys behind a root -/

theorem segments_append_slash (a b : String) :
    segments (a ++ "/" ++ b) = segments a ++ segments b := by
  have hlist : (a ++ "/" ++ b).toList = a.toList ++ '/' :: b.toList := by simp
  rw [segments, hlist, List.splitOn_append_cons_self, List.map_append]
  rfl

/-- Behind a slash at the end stands an empty segment. -/
theorem segments_slash (a : String) : segments (a ++ "/") = segments a ++ [""] := by
  have hempty : segments "" = [""] := rfl
  rw [← hempty, ← segments_append_slash, String.append_empty]

theorem isKey_iff : isKey key = true ↔
    '\\' ∉ key.toList ∧ ∀ name ∈ segments key, isForbidden name = false := by
  simp [isKey]

/-- An absolute path has an empty segment in front. -/
theorem not_isAbsolute_of_isKey (h : isKey key = true) : ¬ IsAbsolute key := by
  intro habsolute
  obtain ⟨rest, hrest⟩ := List.head?_eq_some_iff.mp habsolute
  have hempty : "" ∈ segments key := by
    rw [segments, hrest, List.splitOn_cons_eq_if_modifyHead]
    exact List.mem_cons_self
  exact absurd ((isKey_iff.mp h).2 "" hempty) (by decide)

/-- What follows does not decide whether a path is absolute, if anything stands before it. -/
theorem isAbsolute_append {a : String} (ha : a ≠ "") (b : String) :
    IsAbsolute (a ++ b) ↔ IsAbsolute a := by
  have hne : a.toList ≠ [] := fun hnil => ha (String.toList_eq_nil_iff.mp hnil)
  rw [IsAbsolute, IsAbsolute, String.toList_append, List.head?_append_of_ne_nil _ hne]

/-- Behind a slash a path is walked from where the path up to the slash leads. -/
theorem resolve_append_slash (folder : Path) (a b : String) :
    resolve folder (a ++ "/" ++ b) = walk (resolve folder (a ++ "/")) (segments b) := by
  have hne : a ++ "/" ≠ "" := by simp
  -- The empty segment behind the slash stays where it is.
  simp only [resolve, walk, isAbsolute_append hne, segments_append_slash, segments_slash,
    List.foldl_append]
  rfl

/-- A slash at the end changes nothing. -/
theorem resolve_slash {a : String} (ha : a ≠ "") :
    resolve folder (a ++ "/") = resolve folder a := by
  simp only [resolve, walk, isAbsolute_append ha, segments_slash, List.foldl_append]
  rfl

/-- A relative path behind a root is walked from where the root leads. -/
theorem resolve_join (folder : Path) (root : String) (h : ¬ IsAbsolute key) :
    resolve folder (join root key) = walk (resolve folder root) (segments key) := by
  rw [join, if_neg h]
  split_ifs with hend
  · rcases hend with rfl | hlast
    · -- No root at all is the folder that the walk begins at.
      have hnothing : resolve folder "" = folder := rfl
      rw [String.empty_append, hnothing, resolve, if_neg h]
    · -- The root has its slash already.
      obtain ⟨front, hfront⟩ := List.getLast?_eq_some_iff.mp hlast
      have hroot : root = String.ofList front ++ "/" := by
        apply String.toList_injective
        rw [hfront, String.toList_append, String.toList_ofList]
        rfl
      rw [hroot, resolve_append_slash]
  · rw [resolve_append_slash, resolve_slash (not_or.mp hend).1]

theorem leadsDown_of_isKey (h : isKey key = true) : LeadsDown key := by
  intro folder root
  rw [resolve_join folder root (not_isAbsolute_of_isKey h)]
  exact walk_eq_append_iff.mpr (isKey_iff.mp h).2

/-- The check of keys is exact: but for backslashes, it lets through every text that leads down
    along its segments. -/
theorem isKey_iff_leadsDown : isKey key = true ↔ '\\' ∉ key.toList ∧ LeadsDown key := by
  constructor
  · intro h
    exact ⟨(isKey_iff.mp h).1, leadsDown_of_isKey h⟩
  · rintro ⟨hbackslash, hdown⟩
    -- From the root of the file system an absolute path is walked as a relative one is.
    have hjoin : join "" key = key := by
      rw [join, if_pos (Or.inl rfl), String.empty_append, ite_self]
    have hwalk : resolve [] (join "" key) = walk [] (segments key) := by
      rw [hjoin, resolve, ite_self]
    have hroot := hdown [] ""
    rw [hwalk] at hroot
    exact isKey_iff.mpr ⟨hbackslash, walk_eq_append_iff.mp hroot⟩

/-! ## What the calls of a store touch -/

/-- The paths that a file call names. -/
def FileCall.paths : FileCall → List Path
  | .makeFolder path | .isFolder path | .write path _ | .remove path | .read path => [path]
  | .link source target | .move source target => [source, target]

namespace FileStore

/-- A file call that names nothing but the staged file and what stands on the way from the root to
    the file of a key, this file included. -/
def StaysBelow (staged : Path) (key : String) (asked : FileCall) : Prop :=
  ∀ path ∈ asked.paths, path = staged ∨ (path ≠ [] ∧ path <+: segments key)

variable {staged path : Path} {call : Call}

theorem staysBelow_of_staged {asked : FileCall} (h : asked.paths = [staged]) :
    StaysBelow staged key asked := by
  intro named hnamed
  rw [h] at hnamed
  exact Or.inl (List.mem_singleton.mp hnamed)

theorem staysBelow_of_way {asked : FileCall} (h : asked.paths = [path]) (hne : path ≠ [])
    (hway : path <+: segments key) : StaysBelow staged key asked := by
  intro named hnamed
  rw [h] at hnamed
  rw [List.mem_singleton.mp hnamed]
  exact Or.inr ⟨hne, hway⟩

theorem staysBelow_of_target {asked : FileCall} (h : asked.paths = [segments key]) :
    StaysBelow staged key asked :=
  staysBelow_of_way h (segments_ne_nil key) List.prefix_rfl

theorem asks_makeFolders (names : List String) (hway : names.reverse <+: segments key) :
    (makeFolders names).Asks (StaysBelow staged key) := by
  induction names with
  | nil => trivial
  | cons name outer ih =>
    have hne : (name :: outer).reverse ≠ [] := by simp
    have hmake : StaysBelow staged key (.makeFolder (name :: outer).reverse) :=
      staysBelow_of_way rfl hne hway
    have hthere : ∀ fault,
        (orStanding (name :: outer).reverse fault).Asks (StaysBelow staged key) :=
      fun fault => ⟨staysBelow_of_way rfl hne hway, fun _ => trivial⟩
    rw [makeFolders_cons]
    refine ⟨hmake, fun made => ?_⟩
    rcases made with fault | ⟨⟩
    · cases fault with
      | missing =>
        -- The folders around it are made first, and then it is tried again.
        have houter : outer.reverse <+: (name :: outer).reverse := ⟨[name], by simp⟩
        refine Program.Asks.bind (ih (houter.trans hway)) fun around => ?_
        rcases around with fault | ⟨⟩
        · trivial
        · refine ⟨hmake, fun made => ?_⟩
          rcases made with fault | ⟨⟩
          · exact hthere fault
          · trivial
      | occupied | notFolder | isFolder | tooLong | nul => exact hthere _
    · trivial

theorem asks_publish (mode : PutMode) :
    (publish staged (segments key) mode).Asks (StaysBelow staged key) := by
  have hboth : ∀ named ∈ [staged, segments key],
      named = staged ∨ (named ≠ [] ∧ named <+: segments key) := by
    simp [segments_ne_nil key]
  have hremove : StaysBelow staged key (.remove staged) := staysBelow_of_staged rfl
  cases mode with
  | createOnly =>
    rw [publish_createOnly]
    exact ⟨hboth, fun _ => ⟨hremove, fun _ => trivial⟩⟩
  | overwrite =>
    rw [publish_overwrite]
    refine ⟨hboth, fun moved => ?_⟩
    rcases moved with fault | ⟨⟩
    · exact ⟨hremove, fun _ => trivial⟩
    · trivial

theorem asks_put (hkey : isKey key = true) (body : String) (mode : PutMode) :
    (put key staged body mode).Asks (StaysBelow staged key) := by
  have hway : (segments key).dropLast.reverse.reverse <+: segments key := by
    rw [List.reverse_reverse]
    exact List.dropLast_prefix _
  rw [put_eq staged body mode hkey]
  refine Program.Asks.bind (asks_makeFolders _ hway) fun made => ?_
  rcases made with fault | ⟨⟩
  · trivial
  · refine ⟨staysBelow_of_staged rfl, fun written => ?_⟩
    rcases written with fault | ⟨⟩
    · exact ⟨staysBelow_of_staged rfl, fun _ => trivial⟩
    · exact Program.Asks.bind (asks_publish mode) fun _ => trivial

/-- A text that is no key is refused without any file call. -/
theorem program_of_not_isKey (staged : Path) (h : isKey call.key = false) :
    program staged call = .done (.error (.invalidKey call.key)) := by
  cases call with
  | put key body mode =>
    have hkey : isKey key = false := h
    rw [program, put, hkey]
    rfl
  | get key =>
    have hkey : isKey key = false := h
    rw [program, get, hkey]
    rfl
  | delete key =>
    have hkey : isKey key = false := h
    rw [program, delete, hkey]
    rfl

/-- Every file call of a store stays below its root, whatever the earlier ones were answered. -/
theorem asks_program (staged : Path) (call : Call) :
    (program staged call).Asks (StaysBelow staged call.key) := by
  cases hkey : isKey call.key with
  | false =>
    rw [program_of_not_isKey staged hkey]
    trivial
  | true =>
    cases call with
    | put key body mode => exact asks_put hkey body mode
    | get key =>
      have hisKey : isKey key = true := hkey
      have hget : program staged (.get key) = get key := rfl
      rw [hget, get_eq hisKey]
      exact ⟨staysBelow_of_target rfl, fun _ => trivial⟩
    | delete key =>
      have hisKey : isKey key = true := hkey
      have hdelete : program staged (.delete key) = delete key := rfl
      rw [hdelete, delete_eq hisKey]
      exact ⟨staysBelow_of_target rfl, fun _ => trivial⟩

end FileStore

/-- A call that every store refuses: nothing in memory changes, no file call is made and no request
    to a service. -/
structure Refused (call : Call) : Prop where
  memory (m : Memory) : m.answer call = (.error (.invalidKey call.key), m)
  program (staged : Path) : FileStore.program staged call = .done (.error (.invalidKey call.key))
  files (t : FileTree) : FileStore.answer t call = (.error (.invalidKey call.key), t)
  request : Bucket.request? call = none
  bucket {σ : Type} (service : Bucket.Request → σ → Bucket.Reply × σ) (s : σ) :
    Bucket.answer service s call = (.error (.invalidKey call.key), s)

theorem refused_of_not_isKey {call : Call} (h : isKey call.key = false) : Refused call := by
  have hprogram : ∀ staged, FileStore.program staged call = .done (.error (.invalidKey call.key)) :=
    fun staged => FileStore.program_of_not_isKey staged h
  have hrequest : Bucket.request? call = none := by
    rw [Bucket.request?, h]
    rfl
  refine ⟨fun m => ?_, hprogram, fun t => ?_, hrequest, fun service s => ?_⟩
  · unfold Memory.answer
    rw [h]
    rfl
  · rw [FileStore.answer, hprogram]
    rfl
  · unfold Bucket.answer
    rw [hrequest]
    cases call <;> rfl

/-- No key leads out of a store. The keys are the texts without backslashes that lead down along
    their segments, and every other text is refused by every store before anything is touched. A key
    behind any root leads to a place that is strictly below the root, and no other key leads there.
    It is the place that a store in a tree of files works at: each of its file calls names its
    staged file, or this place, or a folder between the root and it. -/
theorem keys_stay_below_root (key : String) :
    (isKey key = true ↔ '\\' ∉ key.toList ∧ LeadsDown key) ∧
    (isKey key = false → ∀ call : Call, call.key = key → Refused call) ∧
    (isKey key = true → ∀ (folder : Path) (root : String),
      (segments key ≠ [] ∧ resolve folder (join root key) = resolve folder root ++ segments key) ∧
      ∀ key', isKey key' = true →
        resolve folder (join root key') = resolve folder (join root key) → key' = key) ∧
    ∀ (staged : Path) (call : Call), call.key = key →
      (FileStore.program staged call).Asks (FileStore.StaysBelow staged key) := by
  refine ⟨isKey_iff_leadsDown, ?refused, fun hkey folder root => ⟨?below, ?unique⟩, ?calls⟩
  case refused =>
    rintro hkey call rfl
    exact refused_of_not_isKey hkey
  case below =>
    exact ⟨segments_ne_nil key, leadsDown_of_isKey hkey folder root⟩
  case unique =>
    intro key' hkey' hsame
    -- Both places are told apart by what stands behind the root.
    rw [leadsDown_of_isKey hkey' folder root, leadsDown_of_isKey hkey folder root] at hsame
    exact segments_injective (List.append_cancel_left hsame)
  case calls =>
    rintro staged call rfl
    exact FileStore.asks_program staged call

/-- A root that goes up and down again, and two texts behind it: one stays below it, and the other
    one would lead out of it and is refused. -/
theorem statement_stays_below :
    resolve ["srv"] (join "data/../store/" "problems/c1/p1.json") =
        ["srv", "store"] ++ ["problems", "c1", "p1.json"] ∧
      (∀ key', isKey key' = true →
        resolve ["srv"] (join "data/../store/" key') =
          resolve ["srv"] (join "data/../store/" "problems/c1/p1.json") →
        key' = "problems/c1/p1.json") ∧
      (FileStore.program [FileStore.staging, "one"] (.get "problems/c1/p1.json")).Asks
        (FileStore.StaysBelow [FileStore.staging, "one"] "problems/c1/p1.json") ∧
      resolve ["srv"] (join "data/../store/" "a/../../passwd") = ["srv", "passwd"] ∧
      Refused (.put "a/../../passwd" "text" .overwrite) := by
  obtain ⟨-, -, hbelow, hcalls⟩ := keys_stay_below_root "problems/c1/p1.json"
  obtain ⟨⟨-, hplace⟩, hother⟩ := hbelow (by decide) ["srv"] "data/../store/"
  obtain ⟨-, hrefused, -, -⟩ := keys_stay_below_root "a/../../passwd"
  exact ⟨hplace, hother, hcalls _ _ rfl, by decide, hrefused (by decide) _ rfl⟩

end ContestPlatform.Content
