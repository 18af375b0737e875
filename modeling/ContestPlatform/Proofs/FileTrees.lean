import ContestPlatform.Content.FileTree
import Mathlib.Data.List.Basic
import Mathlib.Tactic.SplitIfs

/-!
# Walks through a tree of files

A tree is seen through what stands under its paths (`node?`). Whether a call succeeds is decided by
the walk to its path: where all folders around the path stand, the walk comes to what stands under
the path, and where one of them is missing and no file is in its place, something is missing.
-/

namespace ContestPlatform.Content.FileTree

/-! ## What stands under the paths -/

private theorem lookup_filter (entries : List (Path × Node)) (path q : Path) :
    (entries.filter fun e => e.1 != path).lookup q =
      if q = path then none else entries.lookup q := by
  induction entries with
  | nil => simp
  | cons e rest ih =>
    obtain ⟨p, node⟩ := e
    by_cases hp : p = path
    · -- The entry goes, and it was not the one that is looked for unless that one goes as well.
      subst hp
      by_cases hq : q = p
      · subst hq
        simpa using ih
      · have hne : (q == p) = false := beq_eq_false_iff_ne.mpr hq
        simpa [List.lookup_cons, hne, hq] using ih
    · have hkeep : (p != path) = true := bne_iff_ne.mpr hp
      simp only [List.filter_cons, hkeep, if_true, List.lookup_cons, ih]
      by_cases hq : q = p
      · subst hq
        simp [hp]
      · have hne : (q == p) = false := beq_eq_false_iff_ne.mpr hq
        simp [hne]

variable {t : FileTree} {path q : Path} {node : Node}

@[simp] theorem node?_nil : t.node? [] = some .folder := rfl

/-- The root is always there. -/
theorem ne_nil_of_vacant (h : t.node? path = none) : path ≠ [] := by
  rintro rfl
  exact nomatch h

theorem node?_erase (hpath : path ≠ []) :
    (t.erase path).node? q = if q = path then none else t.node? q := by
  cases q with
  | nil => rw [if_neg hpath.symm, node?_nil, node?_nil]
  | cons name rest => exact lookup_filter t.entries path (name :: rest)

theorem node?_insert (hpath : path ≠ []) :
    (t.insert path node).node? q = if q = path then some node else t.node? q := by
  cases q with
  | nil => rw [if_neg hpath.symm, node?_nil, node?_nil]
  | cons name rest =>
    have herase := lookup_filter t.entries path (name :: rest)
    simp only [node?, insert, erase, List.isEmpty_cons, Bool.false_eq_true, if_false,
      List.lookup_cons]
    by_cases hq : name :: rest = path
    · simp [hq]
    · have hne : ((name :: rest) == path) = false := beq_eq_false_iff_ne.mpr hq
      simpa [hne, hq] using herase

/-- What was put under a path last is what stands there. -/
theorem insert_insert (t : FileTree) (path : Path) (node node' : Node) :
    (t.insert path node).insert path node' = t.insert path node' := by
  simp [insert, erase, List.filter_filter]

/-! ## Paths that can be walked -/

/-- A name that a file or folder can have. -/
structure IsName (name : String) : Prop where
  short : name.utf8ByteSize ≤ longestName
  noNul : '\x00' ∉ name.toList

instance (name : String) : Decidable (IsName name) :=
  decidable_of_iff (name.utf8ByteSize ≤ longestName ∧ '\x00' ∉ name.toList)
    ⟨fun h => ⟨h.1, h.2⟩, fun h => ⟨h.short, h.noNul⟩⟩

/-- A path that is nowhere too long and has no NUL. -/
structure Walkable (t : FileTree) (path : Path) : Prop where
  names : ∀ name ∈ path, IsName name
  short : t.lengthOf path ≤ longestPath

instance (t : FileTree) (path : Path) : Decidable (t.Walkable path) :=
  decidable_of_iff ((∀ name ∈ path, IsName name) ∧ t.lengthOf path ≤ longestPath)
    ⟨fun h => ⟨h.1, h.2⟩, fun h => ⟨h.names, h.short⟩⟩

/-- How long a path is does not depend on what stands in the tree. -/
theorem Walkable.congr {t' : FileTree} (h : t.Walkable path)
    (hroot : t'.rootLength = t.rootLength) : t'.Walkable path := by
  refine ⟨h.names, ?_⟩
  rw [lengthOf, hroot]
  exact h.short

private theorem le_length_foldl (names : Path) (n : Nat) :
    n ≤ names.foldl (fun n name => n + 1 + name.utf8ByteSize) n := by
  induction names generalizing n with
  | nil => exact Nat.le_refl n
  | cons name rest ih =>
    have hrest := ih (n + 1 + name.utf8ByteSize)
    rw [List.foldl_cons]
    omega

theorem Walkable.of_prefix (h : t.Walkable path) (hq : q <+: path) : t.Walkable q := by
  obtain ⟨rest, rfl⟩ := hq
  refine ⟨fun name hname => h.names name (List.mem_append_left _ hname), ?_⟩
  have hshort := h.short
  rw [lengthOf, List.foldl_append] at hshort
  exact Nat.le_trans (le_length_foldl rest _) hshort

/-- A folder stands, with all folders around it. -/
def Stands (t : FileTree) (folder : Path) : Prop :=
  ∀ q, q <+: folder → t.node? q = some .folder

/-- No file stands where a folder or one around it has to be. -/
def IsClear (t : FileTree) (folder : Path) : Prop :=
  ∀ q, q <+: folder → ∀ bytes, t.node? q ≠ some (.file bytes)

theorem Stands.isClear {folder : Path} (h : t.Stands folder) : t.IsClear folder := by
  intro q hq bytes hfile
  rw [h q hq] at hfile
  exact nomatch hfile

theorem IsClear.of_prefix {folder : Path} (h : t.IsClear folder) (hq : q <+: folder) :
    t.IsClear q :=
  fun p hp => h p (hp.trans hq)

/-- What stands under a path that is clear is a folder or nothing. -/
theorem IsClear.node?_cases {folder : Path} (h : t.IsClear folder) (hq : q <+: folder) :
    t.node? q = none ∨ t.node? q = some .folder := by
  cases hnode : t.node? q with
  | none => exact Or.inl rfl
  | some node =>
    cases node with
    | file bytes => exact absurd hnode (h q hq bytes)
    | folder => exact Or.inr rfl

/-- A path of at least one name is the last name after all others. -/
theorem prefix_cases (h : q <+: path) : q = path ∨ q <+: path.dropLast := by
  cases hlast : path.getLast? with
  | none =>
    rw [List.getLast?_eq_none_iff.mp hlast] at h ⊢
    exact Or.inl (List.prefix_nil.mp h)
  | some name =>
    obtain ⟨front, rfl⟩ := List.getLast?_eq_some_iff.mp hlast
    rw [List.dropLast_concat]
    exact List.prefix_concat_iff.mp h

theorem stands_singleton {name : String} (h : t.node? [name] = some .folder) :
    t.Stands [name] := by
  intro q hq
  rcases prefix_cases hq with rfl | hnil
  · exact h
  · rw [List.prefix_nil.mp hnil]
    rfl

/-! ## Where a walk ends -/

/-- The walk to a path from a folder. It goes through where all folders on the way stand; where one
    does not, and no file is in its place, it ends there. -/
private theorem obstacle?_cases (folder path : Path)
    (hshort : ∀ name ∈ path, name.utf8ByteSize ≤ longestName)
    (hclear : ∀ q, q <+: path.dropLast → q ≠ [] → ∀ bytes,
      t.node? (folder ++ q) ≠ some (.file bytes)) :
    (t.obstacle? folder path = none ∧
      ∀ q, q <+: path.dropLast → q ≠ [] → t.node? (folder ++ q) = some .folder) ∨
    (t.obstacle? folder path = some .missing ∧
      ∃ q, q <+: path.dropLast ∧ t.node? (folder ++ q) = none) := by
  induction path generalizing folder with
  | nil => exact Or.inl ⟨rfl, fun q hq hne => absurd (List.prefix_nil.mp hq) hne⟩
  | cons name rest ih =>
    have hname := Nat.not_lt.mpr (hshort name List.mem_cons_self)
    cases rest with
    | nil =>
      refine Or.inl ⟨?_, fun q hq hne => absurd (List.prefix_nil.mp hq) hne⟩
      rw [obstacle?, if_neg hname]
    | cons next rest =>
      have hfirst : [name] <+: (name :: next :: rest).dropLast := ⟨_, rfl⟩
      have hinto : ∀ {q}, q <+: (next :: rest).dropLast →
          name :: q <+: (name :: next :: rest).dropLast :=
        fun hq => List.cons_prefix_cons.mpr ⟨rfl, hq⟩
      rw [obstacle?, if_neg hname]
      -- The first folder decides whether the walk goes on.
      cases hnode : t.node? (folder ++ [name]) with
      | none => exact Or.inr ⟨rfl, [name], hfirst, hnode⟩
      | some node =>
        cases node with
        | file bytes => exact absurd hnode (hclear [name] hfirst (by simp) bytes)
        | folder =>
          have hrest := ih (folder ++ [name]) (fun n hn => hshort n (List.mem_cons_of_mem _ hn))
            fun q hq _ bytes => by
              rw [List.append_assoc]
              exact hclear (name :: q) (hinto hq) (by simp) bytes
          rcases hrest with ⟨hnone, hall⟩ | ⟨hmissing, q, hq, hgap⟩
          · refine Or.inl ⟨hnone, fun q hq hne => ?_⟩
            rcases List.prefix_cons_iff.mp hq with rfl | ⟨q', rfl, hq'⟩
            · exact absurd rfl hne
            · by_cases hq0 : q' = []
              · subst hq0
                exact hnode
              · have hfolder := hall q' hq' hq0
                rwa [List.append_assoc] at hfolder
          · refine Or.inr ⟨hmissing, name :: q, hinto hq, ?_⟩
            rwa [List.append_assoc] at hgap

private theorem short_of_obstacle?_eq_none (folder path : Path)
    (h : t.obstacle? folder path = none) : ∀ name ∈ path, name.utf8ByteSize ≤ longestName := by
  induction path generalizing folder with
  | nil => exact fun name hname => nomatch hname
  | cons name rest ih =>
    cases rest with
    | nil =>
      rw [obstacle?] at h
      split_ifs at h with hlong
      exact fun n hn => List.mem_singleton.mp hn ▸ Nat.not_lt.mp hlong
    | cons next rest =>
      rw [obstacle?] at h
      split_ifs at h with hlong
      cases hnode : t.node? (folder ++ [name]) with
      | none =>
        rw [hnode] at h
        exact nomatch h
      | some node =>
        cases node with
        | file bytes =>
          rw [hnode] at h
          exact nomatch h
        | folder =>
          rw [hnode] at h
          intro n hn
          rcases List.mem_cons.mp hn with rfl | hn
          · exact Nat.not_lt.mp hlong
          · exact ih _ h n hn

private theorem find_of_walkable (h : t.Walkable path) :
    t.find path = match t.obstacle? [] path with
      | some fault => .error fault
      | none => .ok (t.node? path) := by
  have hnul : (path.any fun name => name.toList.contains '\x00') = false := by
    refine List.any_eq_false.mpr fun name hname => ?_
    simpa using (h.names name hname).noNul
  rw [find, hnul]
  exact (if_neg Bool.false_ne_true).trans (if_neg (Nat.not_lt.mpr h.short))

/-- The walk to a path goes through, or something on the way is missing. -/
theorem find_cases (h : t.Walkable path) (hclear : t.IsClear path.dropLast) :
    (t.Stands path.dropLast ∧ t.find path = .ok (t.node? path)) ∨
      (¬ t.Stands path.dropLast ∧ t.find path = .error .missing) := by
  rw [find_of_walkable h]
  rcases obstacle?_cases (t := t) [] path (fun name hname => (h.names name hname).short)
      fun q hq _ => hclear q hq with ⟨hnone, hall⟩ | ⟨hmissing, q, hq, hgap⟩
  · refine Or.inl ⟨fun q hq => ?_, by rw [hnone]⟩
    by_cases hne : q = []
    · subst hne
      rfl
    · exact hall q hq hne
  · refine Or.inr ⟨fun hstands => ?_, by rw [hmissing]⟩
    rw [List.nil_append, hstands q hq] at hgap
    exact nomatch hgap

theorem find_of_stands (h : t.Walkable path) (hstands : t.Stands path.dropLast) :
    t.find path = .ok (t.node? path) := by
  rcases find_cases h hstands.isClear with ⟨-, hfind⟩ | ⟨hnot, -⟩
  · exact hfind
  · exact absurd hstands hnot

/-- A walk that goes through comes to what stands under its path, and it went nowhere too far. -/
theorem node?_of_find {there : Option Node} (h : t.find path = .ok there) :
    t.node? path = there ∧ t.Walkable path := by
  unfold find at h
  split_ifs at h with hnul hlong
  cases hobstacle : t.obstacle? [] path with
  | some fault =>
    rw [hobstacle] at h
    exact nomatch h
  | none =>
    rw [hobstacle] at h
    refine ⟨Except.ok.inj h, fun name hname => ⟨?_, ?_⟩, Nat.not_lt.mp hlong⟩
    · exact short_of_obstacle?_eq_none [] path hobstacle name hname
    · have hfree := List.any_eq_false.mp (Bool.not_eq_true _ ▸ hnul) name hname
      simpa using hfree

private theorem node?_of_obstacle?_eq_none (folder path : Path)
    (h : t.obstacle? folder path = none) :
    ∀ q, q <+: path.dropLast → q ≠ [] → t.node? (folder ++ q) = some .folder := by
  induction path generalizing folder with
  | nil => exact fun q hq hne => absurd (List.prefix_nil.mp hq) hne
  | cons name rest ih =>
    cases rest with
    | nil => exact fun q hq hne => absurd (List.prefix_nil.mp hq) hne
    | cons next rest =>
      rw [obstacle?] at h
      split_ifs at h with hlong
      cases hnode : t.node? (folder ++ [name]) with
      | none =>
        rw [hnode] at h
        exact nomatch h
      | some node =>
        cases node with
        | file bytes =>
          rw [hnode] at h
          exact nomatch h
        | folder =>
          rw [hnode] at h
          intro q hq hne
          rcases List.prefix_cons_iff.mp hq with rfl | ⟨q', rfl, hq'⟩
          · exact absurd rfl hne
          · by_cases hq0 : q' = []
            · subst hq0
              exact hnode
            · have hfolder := ih _ h q' hq' hq0
              rwa [List.append_assoc] at hfolder

/-- A walk that goes through has come past folders only. -/
theorem stands_of_find {there : Option Node} (h : t.find path = .ok there) :
    t.Stands path.dropLast := by
  unfold find at h
  split_ifs at h
  cases hobstacle : t.obstacle? [] path with
  | some fault =>
    rw [hobstacle] at h
    exact nomatch h
  | none =>
    intro q hq
    by_cases hne : q = []
    · subst hne
      rfl
    · exact node?_of_obstacle?_eq_none [] path hobstacle q hq hne

/-- A walk that goes through does so wherever the folders still stand. -/
theorem find_of_find (t' : FileTree) {there : Option Node} (h : t.find path = .ok there)
    (hroot : t'.rootLength = t.rootLength)
    (hfolders : ∀ q, t.node? q = some .folder → t'.node? q = some .folder) :
    t'.find path = .ok (t'.node? path) :=
  find_of_stands ((node?_of_find h).2.congr hroot) fun q hq => hfolders q (stands_of_find h q hq)

/-- A file in the place of a file or of nothing is in no way. -/
theorem node?_insert_of_folder {bytes : List UInt8} (hpath : t.node? path ≠ some .folder)
    (hq : t.node? q = some .folder) : (t.insert path (.file bytes)).node? q = some .folder := by
  have hne : path ≠ [] := by
    rintro rfl
    exact hpath rfl
  rw [node?_insert hne, if_neg, hq]
  rintro rfl
  exact hpath hq

/-- Nor is a file that is gone. -/
theorem node?_erase_of_folder (hpath : t.node? path ≠ some .folder)
    (hq : t.node? q = some .folder) : (t.erase path).node? q = some .folder := by
  have hne : path ≠ [] := by
    rintro rfl
    exact hpath rfl
  rw [node?_erase hne, if_neg, hq]
  rintro rfl
  exact hpath hq

/-! ## What calls do -/

section Calls

variable {source target : Path} {bytes : List UInt8}

theorem answer_write_of_vacant (h : t.find path = .ok none) :
    t.answer (.write path bytes) = (.ok (), t.insert path (.file bytes)) := by
  simp only [answer, place, h]
  rfl

theorem answer_link_of_vacant (hsource : t.find source = .ok (some (.file bytes)))
    (htarget : t.find target = .ok none) :
    t.answer (.link source target) = (.ok (), t.insert target (.file bytes)) := by
  simp only [answer, file, vacant, hsource, htarget]
  rfl

theorem answer_link_of_occupied (hsource : t.find source = .ok (some (.file bytes)))
    (htarget : t.find target = .ok (some node)) :
    t.answer (.link source target) = (.error .occupied, t) := by
  simp only [answer, file, vacant, hsource, htarget]
  rfl

theorem answer_move_of_file {there : Option Node}
    (hsource : t.find source = .ok (some (.file bytes))) (htarget : t.find target = .ok there)
    (hthere : there ≠ some .folder) :
    t.answer (.move source target) = (.ok (), (t.erase source).insert target (.file bytes)) := by
  have hplace : t.place target = .ok () := by
    rw [place, htarget]
    rcases there with - | (- | -)
    · rfl
    · rfl
    · exact absurd rfl hthere
  simp only [answer, file, hsource, hplace]
  rfl

theorem answer_remove_of_file (h : t.find path = .ok (some (.file bytes))) :
    t.answer (.remove path) = (.ok (), t.erase path) := by
  simp only [answer, file, h]
  rfl

theorem file_of_vacant (h : t.find path = .ok none) : t.file path = .error .missing := by
  rw [file, h]

theorem file_of_missing (h : t.find path = .error .missing) : t.file path = .error .missing := by
  rw [file, h]

theorem answer_remove_of_missing (h : t.file path = .error .missing) :
    t.answer (.remove path) = (.error .missing, t) := by
  simp only [answer, h]
  rfl

theorem find_of_file (h : t.file path = .ok bytes) : t.find path = .ok (some (.file bytes)) := by
  unfold file at h
  cases hfind : t.find path with
  | error fault =>
    rw [hfind] at h
    exact nomatch h
  | ok there =>
    rw [hfind] at h
    rcases there with - | (bytes' | -)
    · exact nomatch h
    · rw [Except.ok.inj h]
    · exact nomatch h

theorem find_of_vacant (h : t.vacant path = .ok ()) : t.find path = .ok none := by
  unfold vacant at h
  cases hfind : t.find path with
  | error fault =>
    rw [hfind] at h
    exact nomatch h
  | ok there =>
    rw [hfind] at h
    cases there with
    | none => rfl
    | some node => exact nomatch h

theorem find_of_place (h : t.place path = .ok ()) :
    ∃ there, t.find path = .ok there ∧ there ≠ some .folder := by
  unfold place at h
  cases hfind : t.find path with
  | error fault =>
    rw [hfind] at h
    exact nomatch h
  | ok there =>
    rw [hfind] at h
    refine ⟨there, rfl, ?_⟩
    rintro rfl
    exact nomatch h

theorem node?_of_file (h : t.file path = .ok bytes) :
    t.node? path = some (.file bytes) ∧ t.Walkable path :=
  node?_of_find (find_of_file h)

theorem node?_of_place (h : t.place path = .ok ()) :
    t.node? path ≠ some .folder ∧ t.Walkable path := by
  obtain ⟨there, hfind, hthere⟩ := find_of_place h
  obtain ⟨hnode, hwalkable⟩ := node?_of_find hfind
  exact ⟨hnode ▸ hthere, hwalkable⟩

theorem answer_makeFolder_cases (t : FileTree) (path : Path) :
    (∃ fault, t.answer (.makeFolder path) = (.error fault, t)) ∨
      t.find path = .ok none ∧
        t.answer (.makeFolder path) = (.ok (), t.insert path .folder) := by
  cases hvacant : t.vacant path with
  | error fault => exact Or.inl ⟨fault, by simp only [answer, hvacant]; rfl⟩
  | ok done =>
    refine Or.inr ⟨find_of_vacant hvacant, ?_⟩
    simp only [answer, hvacant]
    rfl

theorem answer_write_cases (t : FileTree) (path : Path) (bytes : List UInt8) :
    (∃ fault, t.answer (.write path bytes) = (.error fault, t)) ∨
      t.place path = .ok () ∧
        t.answer (.write path bytes) = (.ok (), t.insert path (.file bytes)) := by
  cases hplace : t.place path with
  | error fault => exact Or.inl ⟨fault, by simp only [answer, hplace]; rfl⟩
  | ok done =>
    refine Or.inr ⟨rfl, ?_⟩
    simp only [answer, hplace]
    rfl

theorem answer_link_cases (t : FileTree) (source target : Path) :
    (∃ fault, t.answer (.link source target) = (.error fault, t)) ∨
      ∃ bytes, t.find source = .ok (some (.file bytes)) ∧ t.find target = .ok none ∧
        t.answer (.link source target) = (.ok (), t.insert target (.file bytes)) := by
  cases hfile : t.file source with
  | error fault => exact Or.inl ⟨fault, by simp only [answer, hfile]; rfl⟩
  | ok bytes =>
    cases hvacant : t.vacant target with
    | error fault => exact Or.inl ⟨fault, by simp only [answer, hfile, hvacant]; rfl⟩
    | ok done =>
      refine Or.inr ⟨bytes, find_of_file hfile, find_of_vacant hvacant, ?_⟩
      simp only [answer, hfile, hvacant]
      rfl

theorem answer_move_cases (t : FileTree) (source target : Path) :
    (∃ fault, t.answer (.move source target) = (.error fault, t)) ∨
      ∃ bytes, t.find source = .ok (some (.file bytes)) ∧ t.place target = .ok () ∧
        t.answer (.move source target) =
          (.ok (), (t.erase source).insert target (.file bytes)) := by
  cases hfile : t.file source with
  | error fault => exact Or.inl ⟨fault, by simp only [answer, hfile]; rfl⟩
  | ok bytes =>
    cases hplace : t.place target with
    | error fault => exact Or.inl ⟨fault, by simp only [answer, hfile, hplace]; rfl⟩
    | ok done =>
      refine Or.inr ⟨bytes, find_of_file hfile, rfl, ?_⟩
      simp only [answer, hfile, hplace]
      rfl

theorem answer_remove_cases (t : FileTree) (path : Path) :
    (∃ fault, t.file path = .error fault ∧ t.answer (.remove path) = (.error fault, t)) ∨
      ∃ bytes, t.find path = .ok (some (.file bytes)) ∧
        t.answer (.remove path) = (.ok (), t.erase path) := by
  cases hfile : t.file path with
  | error fault => exact Or.inl ⟨fault, rfl, by simp only [answer, hfile]; rfl⟩
  | ok bytes =>
    refine Or.inr ⟨bytes, find_of_file hfile, ?_⟩
    simp only [answer, hfile]
    rfl

end Calls

/-! ## Rooted trees -/

/-- Whatever stands in the tree stands in a folder, all the way from the root. -/
def IsRooted (t : FileTree) : Prop :=
  ∀ path node, t.node? path = some node → t.Stands path.dropLast

namespace IsRooted

variable {bytes : List UInt8}

/-- Something can be put in a folder that stands, but no file in the place of a folder. -/
theorem insert (h : t.IsRooted) (hpath : path ≠ []) (hstands : t.Stands path.dropLast)
    (hfolder : t.node? path = some .folder → node = .folder) : (t.insert path node).IsRooted := by
  have hkept : ∀ p, t.node? p = some .folder → (t.insert path node).node? p = some .folder := by
    intro p hp
    rw [node?_insert hpath]
    split_ifs with heq
    · rw [hfolder (heq ▸ hp)]
    · exact hp
  intro q node' hq p hp
  rw [node?_insert hpath] at hq
  split_ifs at hq with heq
  · exact hkept p (hstands p (heq ▸ hp))
  · exact hkept p (h q node' hq p hp)

/-- A file can be removed. -/
theorem erase (h : t.IsRooted) (hfile : t.node? path = some (.file bytes)) :
    (t.erase path).IsRooted := by
  have hpath : path ≠ [] := by
    rintro rfl
    exact nomatch hfile
  intro q node' hq p hp
  rw [node?_erase hpath] at hq
  split_ifs at hq
  exact node?_erase_of_folder (fun hfolder => nomatch hfile.symm.trans hfolder) (h q node' hq p hp)

theorem insert_of_place (h : t.IsRooted) (hplace : t.place path = .ok ()) :
    (t.insert path (.file bytes)).IsRooted := by
  obtain ⟨there, hfind, hthere⟩ := find_of_place hplace
  have hnode := (node?_of_find hfind).1
  have hpath : path ≠ [] := by
    rintro rfl
    exact hthere hnode.symm
  exact h.insert hpath (stands_of_find hfind) fun hfolder => absurd (hnode.symm.trans hfolder) hthere

/-- No call uproots a tree. -/
theorem answer (h : t.IsRooted) (call : FileCall) : (t.answer call).2.IsRooted := by
  cases call with
  | makeFolder path =>
    rcases t.answer_makeFolder_cases path with ⟨fault, hanswer⟩ | ⟨hfind, hanswer⟩
    · rw [hanswer]
      exact h
    · rw [hanswer]
      exact h.insert (ne_nil_of_vacant (node?_of_find hfind).1) (stands_of_find hfind) fun _ => rfl
  | isFolder path => exact h
  | write path bytes =>
    rcases t.answer_write_cases path bytes with ⟨fault, hanswer⟩ | ⟨hplace, hanswer⟩
    · rw [hanswer]
      exact h
    · rw [hanswer]
      exact h.insert_of_place hplace
  | link source target =>
    rcases t.answer_link_cases source target with ⟨fault, hanswer⟩ | ⟨bytes, -, hfind, hanswer⟩
    · rw [hanswer]
      exact h
    · rw [hanswer]
      have hvacant := (node?_of_find hfind).1
      exact h.insert (ne_nil_of_vacant hvacant) (stands_of_find hfind) fun hfolder =>
        nomatch hvacant.symm.trans hfolder
  | move source target =>
    rcases t.answer_move_cases source target with ⟨fault, hanswer⟩ | ⟨bytes, hsource, hplace, hanswer⟩
    · rw [hanswer]
      exact h
    · -- Clearing the old path takes no folder away.
      rw [hanswer]
      have hfile := (node?_of_find hsource).1
      obtain ⟨there, hfind, hthere⟩ := find_of_place hplace
      have hnode := (node?_of_find hfind).1
      have htarget : target ≠ [] := by
        rintro rfl
        exact hthere hnode.symm
      have hsource : source ≠ [] := by
        rintro rfl
        exact nomatch hfile
      refine (h.erase hfile).insert htarget (fun q hq => ?_) fun hfolder => ?_
      · exact node?_erase_of_folder (fun hfolder => nomatch hfile.symm.trans hfolder)
          (stands_of_find hfind q hq)
      · rw [node?_erase hsource] at hfolder
        split_ifs at hfolder
        exact absurd (hnode.symm.trans hfolder) hthere
  | remove path =>
    rcases t.answer_remove_cases path with ⟨fault, -, hanswer⟩ | ⟨bytes, hfind, hanswer⟩
    · rw [hanswer]
      exact h
    · rw [hanswer]
      exact h.erase (node?_of_find hfind).1
  | read path => exact h

end IsRooted

end ContestPlatform.Content.FileTree
