import ContestPlatform.Proofs.LastingStatements
import ContestPlatform.Proofs.ProblemScope

/-!
# Changes of a problem one after another

A change supplies some fields of a problem; the others keep their values. Changes that are made one
after another come to the same as one change that supplies of every field what was supplied last. The
description is a field like any other, although its text is kept in the content store and not in the
row, and so is the flag of multiple answers, although no change supplies it: it goes with the kind and
the answer.
-/

namespace ContestPlatform

/-! ## What was supplied last -/

/-- The last value that was supplied. -/
def lastSupplied {α β : Type} (field : α → Option β) (changes : List α) : Option β :=
  (changes.filterMap field).getLast?

section LastSupplied

variable {α β : Type} (field : α → Option β)

theorem lastSupplied_nil : lastSupplied field [] = none := rfl

theorem lastSupplied_concat (changes : List α) (change : α) :
    lastSupplied field (changes ++ [change]) = (field change).or (lastSupplied field changes) := by
  rw [lastSupplied, List.filterMap_append]
  cases h : field change with
  | none => simp [h, lastSupplied]
  | some value => simp [h]

end LastSupplied

namespace ProblemChange

/-- Two changes in one: what the second one leaves out is as the first one says. -/
def andThen (first second : ProblemChange) : ProblemChange where
  name := second.name.or first.name
  description := second.description.or first.description
  score := second.score.or first.score
  kind := second.kind.or first.kind
  answer := second.answer.or first.answer

/-- The change that supplies of every field what was supplied last. -/
def merged (changes : List ProblemChange) : ProblemChange where
  name := lastSupplied name changes
  description := lastSupplied description changes
  score := lastSupplied score changes
  kind := lastSupplied kind changes
  answer := lastSupplied answer changes

theorem merged_concat (changes : List ProblemChange) (change : ProblemChange) :
    merged (changes ++ [change]) = (merged changes).andThen change := by
  simp only [merged, andThen, lastSupplied_concat]

theorem nil_andThen (change : ProblemChange) : (merged []).andThen change = change := by
  simp only [merged, andThen, lastSupplied_nil, Option.or_none]

theorem merged_singleton (change : ProblemChange) : merged [change] = change :=
  (merged_concat [] change).trans (nil_andThen change)

/-- To make a change twice is to make it once. -/
theorem andThen_self (first second : ProblemChange) :
    (first.andThen second).andThen second = first.andThen second := by
  simp only [andThen, ← Option.or_assoc, Option.or_self]

end ProblemChange

namespace Problem

theorem apply_andThen (p : Problem) (first second : ProblemChange) :
    p.apply (first.andThen second) = (p.apply first).apply second := by
  simp only [apply, ProblemChange.andThen, Option.getD_or]

/-! ## One change -/

section Change

variable {κ : Type} [LawfulContentStore κ] {s t : Stores κ} {contestId id : Uuid} {row : Problem}
  {text? : Option String}

/-- What is stored of a problem: its rows and its text. -/
def record (s : Stores κ) (contestId id : Uuid) : List Problem × Option String :=
  (s.database.problems.filter (Database.isProblemOf contestId id), s.texts (keyOf contestId id))

/-- The text after a change. -/
def textAfter (change : ProblemChange) (text? : Option String) : Option String :=
  (change.description.map document).or text?

/-- The rows after a change. -/
def rowsAfter (db : Database) (p : Problem) : List Problem :=
  db.problems.map fun r =>
    if Database.isProblemOf p.contestId p.id r then { p with contentKey := r.contentKey } else r

theorem problem?_of_record (h : record s contestId id = ([row], text?)) :
    s.database.problem? contestId id = some row := by
  have hrows : s.database.problems.filter (Database.isProblemOf contestId id) = [row] :=
    congrArg Prod.fst h
  rw [Database.problem?, ← List.head?_filter, hrows]
  rfl

/-- The only row of a problem is replaced by the only one. -/
theorem filter_rowsAfter {db : Database} {p : Problem}
    (h : db.problems.filter (Database.isProblemOf p.contestId p.id) = [row])
    (hkey : p.contentKey = row.contentKey) :
    (rowsAfter db p).filter (Database.isProblemOf p.contestId p.id) = [p] := by
  have htest : (Database.isProblemOf p.contestId p.id ∘ fun r =>
      if Database.isProblemOf p.contestId p.id r then { p with contentKey := r.contentKey }
      else r) = Database.isProblemOf p.contestId p.id :=
    funext (Database.isProblemOf_replaced p)
  have hrow : Database.isProblemOf p.contestId p.id row = true := by
    have hmem : row ∈ db.problems.filter (Database.isProblemOf p.contestId p.id) := by
      rw [h]
      exact List.mem_singleton_self row
    exact (List.mem_filter.mp hmem).2
  rw [rowsAfter, List.filter_map, htest, h, List.map_singleton, if_pos hrow, ← hkey]

/-- To write what is there changes nothing. -/
theorem rowsAfter_self {db : Database} {p : Problem}
    (h : db.problems.filter (Database.isProblemOf p.contestId p.id) = [p]) :
    db.withProblems (rowsAfter db p) = db := by
  have hsame : rowsAfter db p = db.problems := by
    refine (List.map_congr_left fun r hr => ?_).trans (List.map_id _)
    split
    case isTrue htest =>
      have hmem : r ∈ db.problems.filter (Database.isProblemOf p.contestId p.id) :=
        List.mem_filter.mpr ⟨hr, htest⟩
      rw [h, List.mem_singleton] at hmem
      rw [hmem]
      rfl
    case isFalse => rfl
  rw [hsame]
  rfl

theorem answer_replaceProblem (db : Database) (p : Problem) :
    db.answer (.replaceProblem p) =
      if Database.isStorable p.name then
        (.ok (db.problems.any (Database.isProblemOf p.contestId p.id)),
          db.withProblems (rowsAfter db p))
      else (.error (.database .unstorable), db) := by
  unfold Database.answer Database.replaceProblem
  dsimp only
  by_cases hname : Database.isStorable p.name = true
  · rw [if_pos hname, hname]
    rfl
  · rw [if_neg hname, Bool.eq_false_iff.mpr hname]
    rfl

/-- A change of a problem with one row writes its text and then its row, if the name can be
    stored. -/
theorem perform_update (change : ProblemChange) (h : record s contestId id = ([row], text?))
    (hkey : row.contentKey = keyOf contestId id) :
    ∃ content, LawfulContentStore.texts content = (match change.description with
        | none => s.texts
        | some description =>
          Function.update s.texts (keyOf contestId id) (some (document description))) ∧
      s.perform (update contestId id change) =
        if Database.isStorable (row.apply change).name then
          (.ok (row.apply change), { s with
            database := s.database.withProblems (rowsAfter s.database (row.apply change)), content })
        else (.error (.database .unstorable), { s with content }) := by
  have hrow := problem?_of_record h
  obtain ⟨hmem, rfl, rfl⟩ := Database.mem_of_problem? hrow
  have hanswer : s.database.answer (.findProblem row.contestId row.id) =
      (.ok (some row), s.database) := by
    rw [Database.answer, hrow]
  have hfind : s.perform (find row.contestId row.id) = (.ok row, s) := by
    rw [find, s.perform_read hanswer, s.perform_found_some]
  have hany : s.database.problems.any (Database.isProblemOf (row.apply change).contestId
      (row.apply change).id) = true := Database.any_isProblemOf.mpr ⟨row, hmem, rfl, rfl⟩
  -- What is written of the row does not depend on what was written of the text.
  have hwrite : ∀ content (wrote : Bool), ({ s with content } : Stores κ).perform (do
      if ← Service.database (.replaceProblem (row.apply change)) then return row.apply change
      if wrote then discardDocument (row.apply change).contentKey
      throw (missing row.id)) =
      if Database.isStorable (row.apply change).name then
        (.ok (row.apply change), { s with
          database := s.database.withProblems (rowsAfter s.database (row.apply change)), content })
      else (.error (.database .unstorable), { s with content }) := by
    intro content wrote
    have hreplace := answer_replaceProblem s.database (row.apply change)
    by_cases hname : Database.isStorable (row.apply change).name = true
    · rw [if_pos hname, hany] at hreplace
      have hreplaced := ({ s with content } : Stores κ).perform_of_answer hreplace
      rw [if_pos hname, Stores.perform_bind_of_ok hreplaced]
      rfl
    · rw [if_neg hname] at hreplace
      have hrefused := ({ s with content } : Stores κ).perform_of_answer hreplace
      rw [if_neg hname, Stores.perform_bind_of_error hrefused]
  rw [update, Stores.perform_bind_of_ok hfind]
  cases hdescription : change.description with
  | none => exact ⟨s.content, rfl, hwrite s.content false⟩
  | some description =>
    have hput : (s.texts.answer (.put row.contentKey (document description) .overwrite)) =
        (.ok (), Function.update s.texts row.contentKey (some (document description))) :=
      Content.Map.answer_put_of_free (hkey ▸ isKey_keyOf row.contestId row.id) (by simp)
    have hok : (ContentStore.answer s.content
        (.put row.contentKey (document description) .overwrite)).1 = .ok () := by
      rw [LawfulContentStore.answer_eq]
      exact congrArg Prod.fst hput
    refine ⟨(ContentStore.answer s.content
      (.put row.contentKey (document description) .overwrite)).2, ?_, ?_⟩
    · rw [LawfulContentStore.texts_answer, ← hkey]
      exact congrArg Prod.snd hput
    · have hcontent : s.perform (Service.content
          (.put (row.apply change).contentKey (document description) .overwrite)) =
          (.ok (), { s with content := (ContentStore.answer s.content
            (.put row.contentKey (document description) .overwrite)).2 }) := by
        rw [Stores.perform_content]
        exact congrArg (·, _) (congrArg (Except.mapError Fault.content) hok)
      dsimp only
      rw [Stores.perform_bind_of_ok hcontent]
      exact hwrite _ true

/-- The row is written after the text. -/
private theorem record_of_replace {mayFail : Prop} {p row' : Problem} (wrote : Bool)
    (hdone : Course mayFail (do
      if ← Service.database (.replaceProblem p) then return p
      if wrote then discardDocument p.contentKey
      throw (missing id) : Service Problem).run s (.done (.ok row')) t)
    (h : record s p.contestId p.id = ([row], text?)) (hkey : p.contentKey = row.contentKey) :
    row' = p ∧ Database.isStorable p.name = true ∧ record t p.contestId p.id = ([p], text?) := by
  obtain ⟨replaced, m, hreplace, hend⟩ := hdone.of_andThen
  obtain ⟨hok, hdatabase, hcontent⟩ := hreplace.of_database
  have hanswer := answer_replaceProblem s.database p
  rw [hanswer] at hok hdatabase
  have hname : Database.isStorable p.name = true := by
    by_contra hname
    rw [if_neg hname] at hok
    exact nomatch hok
  rw [if_pos hname] at hdatabase
  have htext : m.texts = s.texts := congrArg LawfulContentStore.texts hcontent
  have hrows : s.database.problems.filter (Database.isProblemOf p.contestId p.id) = [row] :=
    congrArg Prod.fst h
  cases replaced with
  | false =>
    -- The row is not gone.
    cases wrote with
    | false => exact hend.not_throw.elim
    | true =>
      obtain ⟨_, _, _, hthrow⟩ := hend.of_andThen
      exact hthrow.not_throw.elim
  | true =>
    obtain ⟨rfl, rfl⟩ := hend.of_pure
    refine ⟨rfl, hname, Prod.ext ?_ ?_⟩
    · rw [record, hdatabase]
      exact filter_rowsAfter hrows hkey
    · rw [← congrArg Prod.snd h]
      exact congrFun htext _

/-- What a change that succeeds gives is the row after it, and all that is stored. -/
theorem record_of_update {mayFail : Prop} {change : ProblemChange} {row' : Problem}
    (hdone : Course mayFail (update contestId id change).run s (.done (.ok row')) t)
    (h : record s contestId id = ([row], text?)) (hkey : row.contentKey = keyOf contestId id) :
    row' = row.apply change ∧ Database.isStorable row'.name = true ∧
      record t contestId id = ([row'], textAfter change text?) := by
  unfold update at hdone
  obtain ⟨q, m, hfind, hchange⟩ := hdone.of_andThen
  obtain ⟨found?, m₁, hread, hfound⟩ := hfind.of_andThen
  obtain ⟨rfl, rfl⟩ := hfound.of_found
  obtain ⟨hok, hdatabase, hcontent⟩ := hread.of_database
  -- The row that was found is the one that is stored.
  have hq : s.database.problem? contestId id = some q := Except.ok.inj hok
  obtain rfl : row = q := Option.some.inj ((problem?_of_record h).symm.trans hq)
  obtain ⟨hmem, rfl, rfl⟩ := Database.mem_of_problem? hq
  have hread : record m row.contestId row.id = ([row], text?) := by
    rw [← h, record, record, hdatabase, Stores.texts, hcontent]
    rfl
  cases hdescription : change.description with
  | none =>
    simp only [hdescription] at hchange
    obtain ⟨rfl, hname, hrecord⟩ := record_of_replace false hchange hread rfl
    refine ⟨rfl, hname, ?_⟩
    rw [textAfter, hdescription]
    exact hrecord
  | some description =>
    simp only [hdescription] at hchange
    obtain ⟨_, m₂, hput, hwrite⟩ := hchange.of_andThen
    obtain ⟨hput, hkept, htexts⟩ := hput.of_content
    have hwritten : record m₂ row.contestId row.id = ([row], some (document description)) := by
      have hrows : m.database.problems.filter (Database.isProblemOf row.contestId row.id) = [row] :=
        congrArg Prod.fst hread
      rw [record, hkept, hrows, htexts, Content.Map.answer_put_ok hput, ← hkey]
      exact congrArg ([row], ·) (Function.update_self _ _ _)
    obtain ⟨rfl, hname, hrecord⟩ := record_of_replace true hwrite hwritten rfl
    refine ⟨rfl, hname, ?_⟩
    rw [textAfter, hdescription]
    exact hrecord

/-- What was created is all that is stored. -/
theorem record_of_create {mayFail : Prop} {new : NewProblem} {p : Problem}
    (hdone : Course mayFail (create contestId new).run s (.done (.ok p)) t) :
    p = ofNew contestId p.id new ∧ Database.isStorable p.name = true ∧
      record t contestId p.id = ([p], some (document new.description)) := by
  unfold create at hdone
  obtain ⟨known, m, hknown, hcreate⟩ := hdone.of_andThen
  cases known with
  | false => exact hcreate.not_throw.elim
  | true =>
    obtain ⟨drawn, m₁, hdrawn, hwrite⟩ := hcreate.of_andThen
    obtain ⟨_, m₂, hput, hrest⟩ := hwrite.of_andThen
    obtain ⟨_, m₃, hinsert, hend⟩ := hrest.of_andThen
    obtain ⟨rfl, rfl⟩ := hend.of_pure
    obtain ⟨hput, hkept, htexts⟩ := hput.of_content
    obtain ⟨hok, hdatabase, hcontent⟩ := hinsert.of_database
    have hfresh : m₂.database.hasProblem drawn = false := by
      have heffect := Database.effect_answer m₂.database (.insertProblem (ofNew contestId drawn new))
      rw [hok] at heffect
      exact heffect.hasProblem_of_inserted
    have hbefore : m₂.database.problems.filter (Database.isProblemOf contestId drawn) = [] := by
      refine List.filter_eq_nil_iff.mpr fun r hr htest => ?_
      have hid := (Database.isProblemOf_eq_true.mp htest).2
      exact nomatch hfresh.symm.trans (List.any_eq_true.mpr ⟨r, hr, beq_iff_eq.mpr hid⟩)
    have htest : Database.isProblemOf contestId drawn (ofNew contestId drawn new) = true :=
      Database.isProblemOf_eq_true.mpr ⟨rfl, rfl⟩
    refine ⟨rfl, ?_, Prod.ext ?_ ?_⟩
    · have hstorable := Database.isStorableProblem_of_insertProblem hok
      rw [Database.isStorableProblem, Bool.and_eq_true] at hstorable
      exact hstorable.1
    · have hrows : t.database.problems = m₂.database.problems ++ [ofNew contestId drawn new] := by
        rw [hdatabase, Database.insertProblem_ok hok]
      show t.database.problems.filter (Database.isProblemOf contestId drawn) = [ofNew contestId drawn new]
      rw [hrows, List.filter_append, hbefore, List.filter_cons_of_pos htest, List.filter_nil,
        List.nil_append]
    · have htext : t.texts = m₂.texts := congrArg LawfulContentStore.texts hcontent
      show t.texts (keyOf contestId drawn) = some (document new.description)
      rw [htext, htexts, Content.Map.answer_put_ok hput]
      exact Function.update_self _ _ _

end Change

/-! ## Changes one after another -/

section Sequence

variable {κ : Type} [LawfulContentStore κ] {mayFail : Prop} {s₀ s t : Stores κ}
  {contestId id : Uuid} {p : Problem} {new : NewProblem} {changes : List ProblemChange}

/-- Stores that changes of a problem have come to that were made one after another and succeeded, the
    latest one last. Whatever else happens between them, it leaves alone what is stored of the
    problem. -/
inductive Revised (mayFail : Prop) (contestId id : Uuid) (s : Stores κ) :
    List ProblemChange → Stores κ → Prop where
  | start : Revised mayFail contestId id s [] s
  | changed {changes : List ProblemChange} {change : ProblemChange} {row : Problem}
      {t t' : Stores κ} (hrevised : Revised mayFail contestId id s changes t)
      (hdone : Course mayFail (update contestId id change).run t (.done (.ok row)) t') :
      Revised mayFail contestId id s (changes ++ [change]) t'
  | aside {changes : List ProblemChange} {t t' : Stores κ}
      (hrevised : Revised mayFail contestId id s changes t)
      (hkept : record t' contestId id = record t contestId id) :
      Revised mayFail contestId id s changes t'

/-- What is stored of a problem after changes: one row and one text. -/
structure Stored (p : Problem) (description : String) (changes : List ProblemChange)
    (t : Stores κ) : Prop where
  name : Database.isStorable (p.apply (.merged changes)).name = true
  record : record t p.contestId p.id = ([p.apply (.merged changes)],
    some (document ((ProblemChange.merged changes).description.getD description)))

namespace Stored

variable {description : String}

/-- A change that succeeds gives the row as it is stored then. -/
theorem changed (h : Stored p description changes t) (hkey : p.contentKey = keyOf p.contestId p.id)
    {change : ProblemChange} {row : Problem} {t' : Stores κ}
    (hdone : Course mayFail (update p.contestId p.id change).run t (.done (.ok row)) t') :
    row = p.apply (.merged (changes ++ [change])) ∧
      Stored p description (changes ++ [change]) t' := by
  obtain ⟨rfl, hname, hrecord⟩ := record_of_update hdone h.record hkey
  have hrow : (p.apply (.merged changes)).apply change =
      p.apply (.merged (changes ++ [change])) := by
    rw [ProblemChange.merged_concat, apply_andThen]
  have htext : textAfter change
      (some (document ((ProblemChange.merged changes).description.getD description))) =
      some (document ((ProblemChange.merged (changes ++ [change])).description.getD description)) := by
    rw [ProblemChange.merged_concat, textAfter, ProblemChange.andThen]
    cases change.description <;> rfl
  rw [hrow] at hname hrecord ⊢
  rw [htext] at hrecord
  exact ⟨rfl, hname, hrecord⟩

theorem of_revised (h : Stored p description [] s) (hkey : p.contentKey = keyOf p.contestId p.id)
    (hrevised : Revised mayFail p.contestId p.id s changes t) : Stored p description changes t := by
  induction hrevised with
  | start => exact h
  | changed _ hdone ih => exact (ih.changed hkey hdone).2
  | aside _ hkept ih => exact ⟨ih.name, hkept.trans ih.record⟩

/-- A change whose name can be stored succeeds, and the rows and the texts are as they have to be. -/
theorem perform_change (h : Stored p description changes t)
    (hkey : p.contentKey = keyOf p.contestId p.id) (change : ProblemChange)
    (hname : Database.isStorable (p.apply ((ProblemChange.merged changes).andThen change)).name = true) :
    ∃ content, LawfulContentStore.texts content = (match change.description with
        | none => t.texts
        | some description =>
          Function.update t.texts (keyOf p.contestId p.id) (some (document description))) ∧
      t.perform (update p.contestId p.id change) =
        (.ok (p.apply ((ProblemChange.merged changes).andThen change)), { t with
          database := t.database.withProblems (rowsAfter t.database
            (p.apply ((ProblemChange.merged changes).andThen change))), content }) := by
  obtain ⟨content, htexts, hdone⟩ := perform_update change h.record hkey
  rw [← apply_andThen, if_pos hname] at hdone
  exact ⟨content, htexts, hdone⟩

/-- The last change can be made again, and nothing changes. -/
theorem perform_again {change : ProblemChange} (h : Stored p description (changes ++ [change]) t)
    (hkey : p.contentKey = keyOf p.contestId p.id) :
    ∃ content, LawfulContentStore.texts content = t.texts ∧
      t.perform (update p.contestId p.id change) =
        (.ok (p.apply (.merged (changes ++ [change]))), { t with content }) := by
  have htwice : (ProblemChange.merged (changes ++ [change])).andThen change =
      .merged (changes ++ [change]) := by
    rw [ProblemChange.merged_concat, ProblemChange.andThen_self]
  obtain ⟨content, htexts, hdone⟩ := h.perform_change hkey change (htwice.symm ▸ h.name)
  have hrows : t.database.problems.filter (Database.isProblemOf p.contestId p.id) =
    [p.apply (.merged (changes ++ [change]))] := congrArg Prod.fst h.record
  rw [htwice, rowsAfter_self hrows] at hdone
  refine ⟨content, ?_, hdone⟩
  rw [htexts]
  cases hdescription : change.description with
  | none => rfl
  | some text =>
    -- The text is the one that is there.
    have htext : t.texts (keyOf p.contestId p.id) = some (document text) := by
      have hsnd : t.texts (keyOf p.contestId p.id) = some (document
        ((ProblemChange.merged (changes ++ [change])).description.getD description)) :=
        congrArg Prod.snd h.record
      rw [hsnd, ProblemChange.merged_concat, ProblemChange.andThen, hdescription]
      rfl
    dsimp only
    rw [← htext, Function.update_eq_self]

end Stored

/-- Changes of a new problem that are made one after another, whatever else happens between them that
    leaves the problem alone, come to the same as one change that supplies of every field what was
    supplied last. The problem keeps its identifier, its contest and its key; every change gives the
    row as it is stored after it; and the last one can be made again, and nothing changes. -/
theorem changes_compose
    (hcreated : Course mayFail (create contestId new).run s₀ (.done (.ok p)) s)
    (hrevised : Revised mayFail contestId p.id s changes t) :
    p = ofNew contestId p.id new ∧
    record t contestId p.id = ([p.apply (.merged changes)],
      some (document ((ProblemChange.merged changes).description.getD new.description))) ∧
    (p.apply (.merged changes)).place = (contestId, p.id, keyOf contestId p.id) ∧
    (∃ u, s.perform (update contestId p.id (.merged changes)) =
        (.ok (p.apply (.merged changes)), u) ∧
      record u contestId p.id = record t contestId p.id) ∧
    (∀ change row t',
      Course mayFail (update contestId p.id change).run t (.done (.ok row)) t' →
        (record t' contestId p.id).1 = [row]) ∧
    ∀ last, changes.getLast? = some last → ∃ content, LawfulContentStore.texts content = t.texts ∧
      t.perform (update contestId p.id last) =
        (.ok (p.apply (.merged changes)), { t with content }) := by
  obtain ⟨hp, hname, hrecord⟩ := record_of_create hcreated
  generalize p.id = id at *
  subst hp
  have hstart : Stored (ofNew contestId id new) new.description [] s := ⟨hname, hrecord⟩
  have hstored : Stored (ofNew contestId id new) new.description changes t :=
    hstart.of_revised rfl hrevised
  refine ⟨rfl, hstored.record, rfl, ?_, ?_, ?_⟩
  · obtain ⟨content, -, hdone⟩ := hstart.perform_change rfl (.merged changes)
      (ProblemChange.nil_andThen _ ▸ hstored.name)
    rw [ProblemChange.nil_andThen] at hdone
    refine ⟨_, hdone, ?_⟩
    have hone := (hstart.changed rfl (.of_perform mayFail hdone)).2.record
    rw [List.nil_append, ProblemChange.merged_singleton] at hone
    exact hone.trans hstored.record.symm
  · intro change row t' hdone
    obtain ⟨rfl, hstored'⟩ := hstored.changed rfl hdone
    exact congrArg Prod.fst hstored'.record
  · intro last hlast
    obtain ⟨before, rfl⟩ := List.getLast?_eq_some_iff.mp hlast
    exact hstored.perform_again rfl

end Sequence

/-! ### Two changes -/

/-- A problem with one right answer. -/
def oddNumber : NewProblem :=
  ⟨"Odd", "Which number is odd?", 10, .mcq, [1]⟩

/-- Another text and another answer. -/
def manyOdd : ProblemChange :=
  ⟨none, some "Which numbers are odd?", none, none, some [1, 3]⟩

/-- Another name and yet another answer. -/
def renamed : ProblemChange :=
  ⟨some "Odd numbers", none, none, none, some [3, 5]⟩

/-- The text of the first change and the answer of the second one stay. -/
theorem two_changes_compose : ∃ (p : Problem) (s t : Stores Content.Memory),
    Course False (create (.ofNat 1) oddNumber).run Submission.codeStores (.done (.ok p)) s ∧
    Revised False (.ofNat 1) p.id s [manyOdd, renamed] t ∧
    record t (.ofNat 1) p.id = ([{ p with
      name := "Odd numbers", answer := [3, 5], hasMultipleAnswers := true }],
      some (document "Which numbers are odd?")) := by
  have hcreated := Course.of_perform False (rfl : Submission.codeStores.perform
    (create (.ofNat 1) oddNumber) = (.ok (ofNew (.ofNat 1) (IdSource.numbered 1) oddNumber), _))
  obtain ⟨-, hname, hrecord⟩ := record_of_create hcreated
  have hstart : Stored (ofNew (.ofNat 1) (IdSource.numbered 1) oddNumber) _ [] _ := ⟨hname, hrecord⟩
  -- Both changes have names that can be stored.
  obtain ⟨_, -, hfirst⟩ := hstart.perform_change rfl manyOdd (by decide)
  have hchanged := (hstart.changed rfl (.of_perform False hfirst)).2
  obtain ⟨_, -, hsecond⟩ := hchanged.perform_change rfl renamed (by decide)
  have hrevised := Revised.changed (.changed .start (.of_perform False hfirst))
    (.of_perform False hsecond)
  exact ⟨_, _, _, hcreated, hrevised, (changes_compose hcreated hrevised).2.1⟩

end Problem

end ContestPlatform
