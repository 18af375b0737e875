import ContestPlatform.Content.Key
import ContestPlatform.Problem.Basic
import ContestPlatform.Proofs.UuidText
import ContestPlatform.Submission.Basic

/-!
# The keys of the platform

A statement is kept under the key of its problem, in a folder of its contest, and the code of a
submission under the identifier of the submission. Both are keys that stores accept. The key of a
statement determines the contest and the problem, and it lies in the folder of its own contest
only. The code of a submission lies in no folder.
-/

namespace ContestPlatform

open Content (segments isForbidden isKey)

namespace Problem

/-- The folder of the statements of a contest. -/
def folderOf (contestId : Uuid) : String :=
  "problems/" ++ contestId.text ++ "/"

/-- A key that lies in the folder of the statements of a contest. -/
def InFolder (contestId : Uuid) (key : String) : Prop :=
  (folderOf contestId).toList <+: key.toList

instance (contestId : Uuid) (key : String) : Decidable (InFolder contestId key) :=
  inferInstanceAs (Decidable ((folderOf contestId).toList <+: key.toList))

theorem toList_keyOf (contestId problemId : Uuid) :
    (keyOf contestId problemId).toList =
      "problems".toList ++ '/' :: (contestId.render ++
        '/' :: (problemId.render ++ ".json".toList)) := by
  simp [keyOf]

theorem toList_folderOf (contestId : Uuid) :
    (folderOf contestId).toList = "problems".toList ++ '/' :: (contestId.render ++ ['/']) := by
  simp [folderOf]

/-- The key of a statement determines the contest and the problem. -/
theorem keyOf_inj {c c' p p' : Uuid} : keyOf c p = keyOf c' p' ↔ c = c' ∧ p = p' := by
  constructor
  · intro h
    have hlist := congrArg String.toList h
    rw [toList_keyOf, toList_keyOf] at hlist
    have htail := (List.cons.inj (List.append_cancel_left hlist)).2
    -- Printed identifiers are equally long, so the keys fall apart at the same places.
    obtain ⟨hc, hrest⟩ := List.append_inj htail (by simp)
    have hp := List.append_cancel_right (List.cons.inj hrest).2
    exact ⟨Uuid.render_injective hc, Uuid.render_injective hp⟩
  · rintro ⟨rfl, rfl⟩
    rfl

/-- The key of a statement lies in the folder of its own contest and in no other one. -/
theorem inFolder_keyOf {c c' p : Uuid} : InFolder c (keyOf c' p) ↔ c = c' := by
  rw [InFolder, toList_folderOf, toList_keyOf]
  constructor
  · intro h
    obtain ⟨rest, hrest⟩ := h
    simp only [List.append_assoc, List.cons_append] at hrest
    have htail := (List.cons.inj (List.append_cancel_left hrest)).2
    exact Uuid.render_injective (List.append_inj htail (by simp)).1
  · rintro rfl
    exact ⟨p.render ++ ".json".toList, by simp⟩

theorem segments_keyOf (contestId problemId : Uuid) :
    segments (keyOf contestId problemId) =
      ["problems", contestId.text, String.ofList (problemId.render ++ ".json".toList)] := by
  -- The last segment is the name of the file.
  have hlast : '/' ∉ problemId.render ++ ".json".toList := by
    simp [Uuid.slash_notMem_render]
  rw [segments, toList_keyOf, List.splitOn_append_cons_self_of_not_mem (by decide),
    List.splitOn_append_cons_self_of_not_mem contestId.slash_notMem_render,
    List.splitOn_eq_singleton hlast]
  rfl

end Problem

/-- A segment that is longer than two characters is not forbidden. -/
private theorem isForbidden_eq_false {cs : List Char} (h : 2 < cs.length) :
    isForbidden (String.ofList cs) = false := by
  have hne : ∀ s : String, s.toList.length ≤ 2 → (String.ofList cs == s) = false := by
    intro s hs
    rw [beq_eq_false_iff_ne]
    rintro rfl
    rw [String.toList_ofList] at hs
    omega
  simp only [isForbidden, hne "" (by decide), hne "." (by decide), hne ".." (by decide),
    Bool.or_false]

/-- Content stores accept the key of a statement. -/
@[simp] theorem Problem.isKey_keyOf (contestId problemId : Uuid) :
    isKey (keyOf contestId problemId) = true := by
  have hbackslash : '\\' ∉ (keyOf contestId problemId).toList := by
    rw [toList_keyOf]
    simp [Uuid.backslash_notMem_render]
  have htext : isForbidden contestId.text = false :=
    isForbidden_eq_false (by simp)
  have hname : isForbidden (String.ofList (problemId.render ++ ".json".toList)) = false :=
    isForbidden_eq_false (by simp)
  simp only [isKey, segments_keyOf, List.any_cons, List.any_nil, htext, hname,
    List.contains_eq_mem, decide_eq_false hbackslash]
  decide

namespace Submission

theorem codeKey_inj {id id' : Uuid} : codeKey id = codeKey id' ↔ id = id' :=
  Uuid.text_injective.eq_iff

theorem segments_codeKey (id : Uuid) : segments (codeKey id) = [id.text] := by
  rw [segments, codeKey, Uuid.toList_text, List.splitOn_eq_singleton id.slash_notMem_render]
  rfl

/-- Content stores accept the key of the code of a submission. -/
@[simp] theorem isKey_codeKey (id : Uuid) : isKey (codeKey id) = true := by
  have hforbidden : isForbidden id.text = false :=
    isForbidden_eq_false (by simp)
  have hbackslash : '\\' ∉ (codeKey id).toList := by
    rw [codeKey, Uuid.toList_text]
    exact id.backslash_notMem_render
  simp [isKey, segments_codeKey, hforbidden, hbackslash]

/-- The code of a submission lies in the folder of no contest. -/
theorem not_inFolder_codeKey (contestId id : Uuid) : ¬ Problem.InFolder contestId (codeKey id) := by
  rintro ⟨rest, hrest⟩
  -- A key in a folder has a slash, and a printed identifier has none.
  have hslash : '/' ∈ (codeKey id).toList := by
    rw [← hrest, Problem.toList_folderOf]
    simp
  rw [codeKey, Uuid.toList_text] at hslash
  exact id.slash_notMem_render hslash

/-- So it is not under the key of a statement. -/
theorem codeKey_ne_keyOf (id contestId problemId : Uuid) :
    codeKey id ≠ Problem.keyOf contestId problemId := by
  intro h
  apply not_inFolder_codeKey contestId id
  rw [h]
  exact Problem.inFolder_keyOf.mpr rfl

end Submission

end ContestPlatform
