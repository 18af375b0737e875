import ContestPlatform.Proofs.ContentBackends
import ContestPlatform.Proofs.ContentKeys
import Mathlib.Data.Set.Operations

/-!
# The key space of the platform

The platform keeps two kinds of texts, statements and code, in one content store. Every text has a
key of its own, and no key would have to be a folder around another one or around a staged file. So
one tree can hold files under all of these keys, as long as the path of its root leaves room for
the longest of them.
-/

namespace ContestPlatform.Content

open FileStore (KeyFits KeysFit staging)
open FileTree (IsName longestPath)

/-! ## Lengths of paths -/

namespace FileTree

/-- Names behind a path take as many bytes as their text with slashes between them, and one more
    slash. -/
private theorem length_foldl_intercalate (part : List Char) (parts : List (List Char)) (n : Nat) :
    ((part :: parts).map String.ofList).foldl (fun n name => n + 1 + name.utf8ByteSize) n =
      n + 1 + (String.ofList (['/'].intercalate (part :: parts))).utf8ByteSize := by
  induction parts generalizing part n with
  | nil => simp
  | cons next rest ih =>
    have hslash : (String.ofList ['/']).utf8ByteSize = 1 := rfl
    rw [List.map_cons, List.foldl_cons, ih, List.intercalate_cons_cons, String.ofList_append,
      String.ofList_append, String.utf8ByteSize_append, String.utf8ByteSize_append, hslash]
    omega

/-- The path to the file of a key is the path of the root, a slash and the key. -/
theorem lengthOf_segments (t : FileTree) (key : String) :
    t.lengthOf (segments key) = t.rootLength + 1 + key.utf8ByteSize := by
  obtain ⟨part, parts, hparts⟩ := List.exists_cons_of_ne_nil (List.splitOn_ne_nil '/' key.toList)
  have hkey : ['/'].intercalate (part :: parts) = key.toList := by
    rw [← hparts, List.intercalate_splitOn]
  rw [lengthOf, segments, hparts, length_foldl_intercalate, hkey, String.ofList_toList]

end FileTree

/-! ## Kept texts -/

/-- What the platform keeps in the content store: the statement of a problem of a contest, or the
    code of a submission. -/
inductive KeptText where
  | statement (contestId problemId : Uuid)
  | code (submissionId : Uuid)
deriving DecidableEq, Inhabited

namespace KeptText

/-- The key under which a text is kept. -/
def key : KeptText → String
  | .statement contestId problemId => Problem.keyOf contestId problemId
  | .code submissionId => Submission.codeKey submissionId

/-- The number of bytes of the longest keys. -/
def longestKey : Nat := 87

@[simp] theorem isKey_key (text : KeptText) : isKey text.key = true := by
  cases text with
  | statement c p => exact Problem.isKey_keyOf c p
  | code id => exact Submission.isKey_codeKey id

theorem utf8ByteSize_key_statement (c p : Uuid) :
    (KeptText.statement c p).key.utf8ByteSize = longestKey := by
  have hfolder : "problems/".utf8ByteSize = 9 := rfl
  have hslash : "/".utf8ByteSize = 1 := rfl
  have hjson : ".json".utf8ByteSize = 5 := rfl
  simp only [key, Problem.keyOf, String.utf8ByteSize_append, Uuid.utf8ByteSize_text, hfolder,
    hslash, hjson, longestKey]

theorem utf8ByteSize_key_le (text : KeptText) : text.key.utf8ByteSize ≤ longestKey := by
  cases text with
  | statement c p => exact (utf8ByteSize_key_statement c p).le
  | code id =>
    have hcode : (KeptText.code id).key.utf8ByteSize = 36 := id.utf8ByteSize_text
    rw [hcode]
    decide

/-- A file can have every name that stands in the key of a text. -/
theorem isName_of_mem_segments {text : KeptText} {name : String} (h : name ∈ segments text.key) :
    IsName name := by
  cases text with
  | statement c p =>
    rw [key, Problem.segments_keyOf] at h
    simp only [List.mem_cons, List.not_mem_nil, or_false] at h
    rcases h with rfl | rfl | rfl
    · decide
    · exact FileStore.isName_text c
    · have hfile : String.ofList (p.render ++ ".json".toList) = p.text ++ ".json" := by
        rw [String.ofList_append]
        rfl
      have hjson : ".json".utf8ByteSize = 5 := rfl
      rw [hfile]
      constructor
      · rw [String.utf8ByteSize_append, p.utf8ByteSize_text, hjson]
        decide
      · rw [String.toList_append, List.mem_append, not_or]
        exact ⟨(FileStore.isName_text p).noNul, by decide⟩
  | code id =>
    rw [key, Submission.segments_codeKey, List.mem_singleton] at h
    rw [h]
    exact FileStore.isName_text id

/-! ## Keys apart -/

/-- A printed identifier is none of the shorter names. -/
theorem text_ne_of_short {name : String} (h : name.utf8ByteSize < 36) (id : Uuid) :
    id.text ≠ name := by
  rintro rfl
  rw [id.utf8ByteSize_text] at h
  exact absurd h (Nat.lt_irrefl 36)

/-- No text is kept among the staged files. -/
theorem head?_segments_ne_staging (text : KeptText) :
    (segments text.key).head? ≠ some staging := by
  cases text with
  | statement c p =>
    rw [key, Problem.segments_keyOf]
    exact (by decide : some "problems" ≠ some staging)
  | code id =>
    rw [key, Submission.segments_codeKey]
    intro hhead
    exact text_ne_of_short (by decide) id (Option.some.inj hhead)

/-- The file of a text is not in the place of a folder around the file of another text, nor of that
    file itself. -/
theorem eq_of_isPrefix {text text' : KeptText} (h : segments text.key <+: segments text'.key) :
    text = text' := by
  cases text with
  | statement c p =>
    cases text' with
    | statement c' p' =>
      -- The keys of two statements have three segments each.
      have hlength : (segments (KeptText.statement c p).key).length =
          (segments (KeptText.statement c' p').key).length := by
        simp only [key, Problem.segments_keyOf, List.length_cons]
      obtain ⟨rfl, rfl⟩ := Problem.keyOf_inj.mp (segments_injective (h.eq_of_length hlength))
      rfl
    | code id' =>
      -- And those of submissions have one.
      have hlength := h.length_le
      simp only [key, Problem.segments_keyOf, Submission.segments_codeKey, List.length_cons,
        List.length_nil] at hlength
      omega
  | code id =>
    rw [key, Submission.segments_codeKey] at h
    cases text' with
    | statement c' p' =>
      rw [key, Problem.segments_keyOf, List.cons_prefix_cons] at h
      exact absurd h.1 (text_ne_of_short (by decide) id)
    | code id' =>
      rw [key, Submission.segments_codeKey, List.cons_prefix_cons] at h
      rw [Uuid.text_injective h.1]

theorem key_injective : Function.Injective key := by
  intro text text' h
  exact eq_of_isPrefix (h ▸ List.prefix_rfl)

/-! ## Room for all keys -/

/-- All keys fit into one tree if and only if there is room for the longest ones behind the root. -/
theorem keysFit_range_key {rootLength : Nat} :
    KeysFit rootLength (Set.range key) ↔ rootLength + 1 + longestKey ≤ longestPath := by
  have hroot : (FileStore.empty rootLength).rootLength = rootLength := rfl
  constructor
  · intro h
    have hfits := h.fits _ (Set.mem_range_self (.statement default default))
    have hshort := hfits.walkable.short
    rwa [FileTree.lengthOf_segments, utf8ByteSize_key_statement, hroot] at hshort
  · intro hroom
    have hfits : ∀ text : KeptText, KeyFits rootLength text.key := by
      intro text
      have hsize := utf8ByteSize_key_le text
      refine ⟨isKey_key text, ⟨fun name => isName_of_mem_segments, ?_⟩,
        head?_segments_ne_staging text⟩
      rw [FileTree.lengthOf_segments, hroot]
      omega
    constructor
    · rintro _ ⟨text, rfl⟩
      exact hfits text
    · rintro _ ⟨text, rfl⟩ _ ⟨text', rfl⟩ h
      rw [eq_of_isPrefix h]

/-- Whatever the platform asks of a store in a new tree with room for its keys, it is answered as
    by a map, whatever names the staged files get. -/
theorem answersNamed_eq_map {rootLength : Nat} (hroom : rootLength + 1 + longestKey ≤ longestPath)
    {calls : List Call} (hcalls : ∀ call ∈ calls, call.key ∈ Set.range key) (names : Nat → Uuid) :
    answers FileStore.answerNamed (FileStore.empty rootLength, names) calls =
      answers Map.answer (fun _ => none) calls := by
  -- A staged file needs less room than a statement.
  have hless : FileStore.stagedLength ≤ 1 + longestKey := by decide
  have hstaged : rootLength + FileStore.stagedLength ≤ longestPath := by omega
  exact FileStore.answersNamed_eq hstaged (keysFit_range_key.mpr hroom) hcalls names

/-- The keys of the platform are well separated. Stores accept every one of them, files can have
    the names in it, and it does not lie among the staged files. One tree can hold files under all
    of them if and only if the path of its root leaves room for a slash and the longest keys.
    Identifiers are printed alike only if they are the same, two texts have the same key only if
    they are of the same kind and have the same identifiers, and no key leads to a folder around
    the file of another one. -/
theorem keys_separated :
    (∀ text : KeptText, isKey text.key = true ∧ (∀ name ∈ segments text.key, IsName name) ∧
      (segments text.key).head? ≠ some staging) ∧
    (∀ rootLength, KeysFit rootLength (Set.range key) ↔
      rootLength + 1 + longestKey ≤ longestPath) ∧
    Function.Injective Uuid.text ∧
    Function.Injective key ∧
    ∀ text text' : KeptText, segments text.key <+: segments text'.key → text = text' := by
  refine ⟨fun text => ⟨isKey_key text, fun name => isName_of_mem_segments, ?_⟩,
    fun rootLength => keysFit_range_key, Uuid.text_injective, key_injective,
    fun text text' => eq_of_isPrefix⟩
  exact head?_segments_ne_staging text

/-- The longest root has 4007 bytes. A submission with the identifier of a contest is not kept where
    a statement of the contest is, nor in the place of a folder around it. -/
theorem keys_below_longest_root :
    KeysFit 4007 (Set.range key) ∧ ¬ KeysFit 4008 (Set.range key) ∧
      (KeptText.code (Uuid.ofNat 1)).key ≠
        (KeptText.statement (Uuid.ofNat 1) (Uuid.ofNat 2)).key ∧
      ¬ segments (KeptText.code (Uuid.ofNat 1)).key <+:
        segments (KeptText.statement (Uuid.ofNat 1) (Uuid.ofNat 2)).key := by
  obtain ⟨-, hfit, -, hinjective, hapart⟩ := keys_separated
  have hother : KeptText.code (Uuid.ofNat 1) ≠ .statement (Uuid.ofNat 1) (Uuid.ofNat 2) := nofun
  exact ⟨(hfit 4007).mpr (by decide), fun h => absurd ((hfit 4008).mp h) (by decide),
    hinjective.ne hother, fun h => hother (hapart _ _ h)⟩

end KeptText

end ContestPlatform.Content
