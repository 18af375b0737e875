import ContestPlatform.Proofs.AnswerFlags
import ContestPlatform.Proofs.Authority
import ContestPlatform.Proofs.Courses
import ContestPlatform.Proofs.DocumentText
import ContestPlatform.Proofs.IntListText
import ContestPlatform.Proofs.ProblemOrigins
import ContestPlatform.Proofs.RequestFaults
import ContestPlatform.Proofs.SubmissionRows

/-!
# The limits of requests in the stores

Neither the services nor the tables check how long a name is, which cohorts there are or whether a
text is empty: requests are checked before they reach a service. So the limits hold in the stores
because every way to write goes through such a check, a partial change keeps what it leaves out, and
the columns give back what they were given. This is shown call by call: `Admits` says which calls
keep the stores within the limits, and an operation on what a request hands in makes no others,
whatever fails on the way and wherever it is cut off.
-/

namespace ContestPlatform

open Http (rules_of_complain)
open Input Interleaving

/-! ## The limits -/

/-- The name of a language: up to 32 lower-case letters, digits and the three signs. -/
structure IsLanguage (name : String) : Prop where
  length : 1 ≤ name.length ∧ name.length ≤ 32
  chars : ∀ c ∈ name.toList,
    ('a' ≤ c ∧ c ≤ 'z') ∨ ('0' ≤ c ∧ c ≤ '9') ∨ c = '+' ∨ c = '#' ∨ c = '_'

/-- A contest as its row is read back. -/
structure Database.ContestRow.WithinLimits (row : Database.ContestRow) : Prop where
  name : 1 ≤ row.name.length ∧ row.name.length ≤ 200
  someCohort : row.contest.eligible ≠ []
  cohorts : ∀ year ∈ row.contest.eligible, 1 ≤ year ∧ year ≤ 3

/-- A problem without its statement. -/
structure Problem.WithinLimits (p : Problem) : Prop where
  name : 1 ≤ p.name.length ∧ p.name.length ≤ 200
  score : 1 ≤ p.score
  answer : ∀ choice ∈ p.answer, 0 ≤ choice

/-- A submission as its row is read back. -/
structure Database.SubmissionRow.WithinLimits (row : Database.SubmissionRow) : Prop where
  choices : ∀ choice ∈ IntList.read row.choices, 0 ≤ choice
  language : ∀ name ∈ row.language, IsLanguage name

namespace Stores

variable {κ : Type} [LawfulContentStore κ]

/-- Under a key there is a document with a description that is not empty. -/
def HasStatement (s : Stores κ) (key : String) : Prop :=
  ∃ text document, s.texts key = some text ∧ ProblemDocument.ofText? text = some document ∧
    document.description ≠ ""

/-- What the limits of requests say of the stores. -/
structure WithinLimits (s : Stores κ) : Prop where
  contests : ∀ row ∈ s.database.contests, row.WithinLimits
  problems : ∀ p ∈ s.database.problems, p.WithinLimits
  statements : ∀ p ∈ s.database.problems, s.HasStatement p.contentKey
  submissions : ∀ row ∈ s.database.submissions, row.WithinLimits
  code : ∀ id text, s.texts (Submission.codeKey id) = some text → text ≠ ""

end Stores

/-! ## What the checks let through -/

section Checks

theorem rules_of_complainOption {α : Type} {field : String} {write : α → Json}
    {rules : α → List Rule} {a? : Option α} (h : complainOption field write rules a? = []) :
    ∀ a ∈ a?, rules a = [] := by
  rintro a rfl
  exact rules_of_complain h

theorem length_of_checkLength {min : Nat} {max : Option Nat} {text : String}
    (h : checkLength min max text = []) :
    min ≤ text.length ∧ ∀ m ∈ max, text.length ≤ m := by
  unfold checkLength at h
  split at h
  case isTrue hlength =>
    refine ⟨hlength.1, ?_⟩
    rintro m rfl
    exact of_decide_eq_true hlength.2
  case isFalse => exact nomatch h

theorem ne_empty_of_checkLength {text : String} (h : checkLength 1 none text = []) : text ≠ "" := by
  rintro rfl
  exact nomatch h

theorem score_of_checkRange {n : Int32} (h : checkRange 1 n = []) : 1 ≤ n := by
  unfold checkRange at h
  split at h
  case isTrue hrange => exact Int32.le_iff_toInt_le.mpr hrange
  case isFalse => exact nomatch h

theorem cohorts_of_checkCohorts {years : List Int32} (h : checkCohorts years = []) :
    years ≠ [] ∧ ∀ year ∈ years, 1 ≤ year ∧ year ≤ 3 := by
  unfold checkCohorts at h
  split at h
  case isTrue => exact nomatch h
  case isFalse hsome =>
    split at h
    case isTrue hall =>
      refine ⟨fun hnone => hsome (List.isEmpty_iff.mpr hnone), fun year hyear => ?_⟩
      obtain ⟨hfirst, hlast⟩ := Bool.and_eq_true_iff.mp (List.all_eq_true.mp hall year hyear)
      exact ⟨of_decide_eq_true hfirst, of_decide_eq_true hlast⟩
    case isFalse => exact nomatch h

theorem choices_of_checkChoices {choices : List Int32} (h : checkChoices choices = []) :
    ∀ choice ∈ choices, 0 ≤ choice := by
  unfold checkChoices at h
  split at h
  case isTrue hall => simpa using hall
  case isFalse => exact nomatch h

theorem mem_range_of_isLower {c : Char} (h : c.isLower = true) : 'a' ≤ c ∧ c ≤ 'z' := by
  obtain ⟨hfirst, hlast⟩ := Bool.and_eq_true_iff.mp h
  exact ⟨of_decide_eq_true hfirst, of_decide_eq_true hlast⟩

theorem mem_range_of_isDigit {c : Char} (h : c.isDigit = true) : '0' ≤ c ∧ c ≤ '9' := by
  obtain ⟨hfirst, hlast⟩ := Bool.and_eq_true_iff.mp h
  exact ⟨of_decide_eq_true hfirst, of_decide_eq_true hlast⟩

theorem isLanguage_of_checks {name : String}
    (hlength : checkLength 1 longestLanguage name = []) (hchars : checkLanguage name = []) :
    IsLanguage name := by
  obtain ⟨hmin, hmax⟩ := length_of_checkLength hlength
  refine ⟨⟨hmin, hmax _ rfl⟩, fun c hc => ?_⟩
  unfold checkLanguage at hchars
  split at hchars
  case isTrue hname =>
    have hchar := List.all_eq_true.mp (Bool.and_eq_true_iff.mp hname).2 c hc
    simp only [isLanguageChar, Bool.or_eq_true, beq_iff_eq, or_assoc] at hchar
    exact hchar.imp mem_range_of_isLower (Or.imp_left mem_range_of_isDigit)
  case isFalse => exact absurd hchars (List.cons_ne_nil _ _)

theorem ContestTerms.row_withinLimits {c : Contest} (h : c.toContestTerms.complaints = [])
    {row : Database.ContestRow} (hrow : Database.ContestRow.ofContest? c = some row) :
    row.WithinLimits := by
  obtain ⟨hname, hcohorts⟩ := List.append_eq_nil_iff.mp h
  obtain ⟨hmin, hmax⟩ := length_of_checkLength (rules_of_complain hname)
  obtain ⟨hsome, hall⟩ := cohorts_of_checkCohorts (rules_of_complain hcohorts)
  have hholds := Database.ContestRow.holds_of_ofContest? hrow
  have heligible : row.contest.eligible = c.eligible := by
    rw [Database.ContestRow.contest, hholds.eligible, IntList.read_plain]
  constructor
  case name => exact hholds.name ▸ ⟨hmin, hmax _ rfl⟩
  case someCohort => exact heligible ▸ hsome
  case cohorts => exact heligible ▸ hall

theorem NewProblem.withinLimits {new : NewProblem} (h : new.complaints = []) (contestId id : Uuid) :
    (Problem.ofNew contestId id new).WithinLimits ∧ new.description ≠ "" := by
  obtain ⟨h, hanswer⟩ := List.append_eq_nil_iff.mp h
  obtain ⟨h, hscore⟩ := List.append_eq_nil_iff.mp h
  obtain ⟨hname, hdescription⟩ := List.append_eq_nil_iff.mp h
  obtain ⟨hmin, hmax⟩ := length_of_checkLength (rules_of_complain hname)
  refine ⟨?_, ne_empty_of_checkLength (rules_of_complain hdescription)⟩
  constructor
  case name => exact ⟨hmin, hmax _ rfl⟩
  case score => exact score_of_checkRange (rules_of_complain hscore)
  case answer => exact choices_of_checkChoices (rules_of_complain hanswer)

/-- What a change leaves out stays within the limits, and what it supplies was checked. -/
theorem ProblemChange.withinLimits {change : ProblemChange} (h : change.complaints = [])
    {p : Problem} (hp : p.WithinLimits) :
    (p.apply change).WithinLimits ∧ ∀ description ∈ change.description, description ≠ "" := by
  obtain ⟨h, hanswer⟩ := List.append_eq_nil_iff.mp h
  obtain ⟨h, hscore⟩ := List.append_eq_nil_iff.mp h
  obtain ⟨hname, hdescription⟩ := List.append_eq_nil_iff.mp h
  refine ⟨?_, fun description hsome =>
    ne_empty_of_checkLength (rules_of_complainOption hdescription description hsome)⟩
  constructor
  case name =>
    show 1 ≤ (change.name.getD p.name).length ∧ (change.name.getD p.name).length ≤ 200
    cases hsupplied : change.name with
    | none => exact hp.name
    | some name =>
      obtain ⟨hmin, hmax⟩ := length_of_checkLength (rules_of_complainOption hname name hsupplied)
      exact ⟨hmin, hmax _ rfl⟩
  case score =>
    show 1 ≤ change.score.getD p.score
    cases hsupplied : change.score with
    | none => exact hp.score
    | some score => exact score_of_checkRange (rules_of_complainOption hscore score hsupplied)
  case answer =>
    show ∀ choice ∈ change.answer.getD p.answer, 0 ≤ choice
    cases hsupplied : change.answer with
    | none => exact hp.answer
    | some answer =>
      exact choices_of_checkChoices (rules_of_complainOption hanswer answer hsupplied)

theorem NewSubmission.row_withinLimits {new : NewSubmission} (h : new.complaints = [])
    {id userId : Uuid} {now : Instant} {row : Database.SubmissionRow}
    (hrow : Database.SubmissionRow.ofSubmission? (.ofNew id userId now new) = some row) :
    row.WithinLimits := by
  obtain ⟨h, hchoices⟩ := List.append_eq_nil_iff.mp h
  obtain ⟨hlanguage, -⟩ := List.append_eq_nil_iff.mp h
  obtain ⟨-, -, -, -, -, hsame, hkept, -⟩ :=
    (Database.SubmissionRow.keeps_of_ofSubmission? hrow).fields
  constructor
  case choices =>
    have hall := choices_of_checkChoices (rules_of_complain hchoices)
    rw [hkept, IntList.read_braced]
    unfold Submission.ofNew
    cases new.kind with
    | mcq => exact hall
    | code => exact fun choice hnone => absurd hnone List.not_mem_nil
  case language =>
    rw [hsame]
    -- The column keeps the name as it is, so the two checks of it are about what is stored.
    intro name hname
    have hrules := rules_of_complainOption hlanguage name hname
    obtain ⟨hlength, hchars⟩ := List.append_eq_nil_iff.mp hrules
    exact isLanguage_of_checks hlength hchars

theorem NewSubmission.code_ne_empty {new : NewSubmission} (h : new.complaints = []) :
    ∀ body ∈ new.code, body ≠ "" := by
  obtain ⟨h, -⟩ := List.append_eq_nil_iff.mp h
  obtain ⟨-, hcode⟩ := List.append_eq_nil_iff.mp h
  exact fun body hbody => ne_empty_of_checkLength (rules_of_complainOption hcode body hbody)

end Checks

/-! ## Calls that keep the stores within the limits -/

/-- A submission was there before a call, or is that of the call. -/
theorem Database.Effect.mem_submissions {db db' : Database} {call : Database.Call}
    {answer : call.Answer} (h : Effect db call answer db') {row : SubmissionRow}
    (hrow : row ∈ db'.submissions) :
    row ∈ db.submissions ∨
      ∃ s, call = .insertSubmission s ∧ SubmissionRow.ofSubmission? s = some row := by
  cases h with
  | @submissionAdded s new hnew _ =>
    rcases List.mem_append.mp hrow with hold | hlast
    · exact Or.inl hold
    · rw [List.mem_singleton.mp hlast]
      exact Or.inr ⟨s, rfl, hnew⟩
  | contestRemoved | problemRemoved => exact Or.inl (List.mem_filter.mp hrow).1
  | _ => exact Or.inl hrow

/-- A text that is within the limits under a key: a statement, or code, that is not empty. -/
inductive Content.Fit : String → String → Prop where
  | statement (contestId id : Uuid) {description : String} (hsome : description ≠ "") :
      Fit (Problem.keyOf contestId id) (Problem.document description)
  | code (id : Uuid) {body : String} (hsome : body ≠ "") : Fit (Submission.codeKey id) body

namespace Stores

variable {κ : Type} [LawfulContentStore κ] {s s' : Stores κ}

/-- What a call may write, as the stores are. -/
def Admits (s : Stores κ) : Call → Prop
  | .database (.insertContest c) | .database (.replaceContest c) => c.toContestTerms.complaints = []
  | .database (.insertProblem p) =>
    p.WithinLimits ∧ p.contentKey = Problem.keyOf p.contestId p.id ∧ s.HasStatement p.contentKey
  | .database (.replaceProblem p) => p.WithinLimits
  | .database (.insertSubmission sub) =>
    ∀ row, Database.SubmissionRow.ofSubmission? sub = some row → row.WithinLimits
  | .content (.put key body _) => Content.Fit key body
  | .content (.delete key) => ∀ p ∈ s.database.problems, p.contentKey ≠ key
  | _ => True

theorem admits_of_reads {call : Call} (hreads : call.reads = true) (s : Stores κ) :
    s.Admits call := by
  -- None of the calls that `Admits` asks something of is one that reads.
  unfold Admits
  split <;> trivial

/-- Stores within the limits, in which every problem has the key of its own statement. -/
structure Limited (s : Stores κ) : Prop extends s.WithinLimits where
  keyed : s.database.Keyed

namespace Limited

variable {mayFail : Prop}

theorem kept (h : s.Limited) (hkept : Kept s s') : s'.Limited := by
  obtain ⟨⟨hcontests, hproblems, hstatements, hsubmissions, hcode⟩, hkeyed⟩ := h
  constructor
  · constructor
    case contests => rwa [hkept.database]
    case problems => rwa [hkept.database]
    case statements =>
      unfold HasStatement
      rwa [hkept.database, hkept.texts]
    case submissions => rwa [hkept.database]
    case code => rwa [hkept.texts]
  · rwa [hkept.database]

/-- A text that fits may be put under its key. -/
theorem put (h : s.Limited) {key body : String} (hfit : Content.Fit key body)
    (hdatabase : s'.database = s.database)
    (htexts : s'.texts = Function.update s.texts key (some body)) : s'.Limited := by
  constructor
  · constructor
    case contests => exact hdatabase ▸ h.contests
    case problems => exact hdatabase ▸ h.problems
    case statements =>
      rw [hdatabase]
      intro p hp
      by_cases hkey : p.contentKey = key
      · -- The text under the key of a statement is a statement.
        cases hfit with
        | statement contestId id hsome =>
          refine ⟨_, ⟨_⟩, ?_, ProblemDocument.ofText?_print _, hsome⟩
          rw [htexts, hkey, Function.update_self]
          rfl
        | code id hsome =>
          -- A row has the key of its own statement, and no code is kept under such a key.
          rw [h.keyed p hp] at hkey
          exact absurd hkey.symm (Submission.codeKey_ne_keyOf _ _ _)
      · obtain ⟨text, document, htext, hdocument⟩ := h.statements p hp
        exact ⟨text, document, by rw [htexts, Function.update_of_ne hkey, htext], hdocument⟩
    case submissions => exact hdatabase ▸ h.submissions
    case code =>
      intro id text htext
      rw [htexts] at htext
      by_cases hkey : Submission.codeKey id = key
      · rw [hkey, Function.update_self] at htext
        cases htext
        cases hfit with
        | statement contestId id' => exact absurd hkey (Submission.codeKey_ne_keyOf _ _ _)
        | code _ hsome => exact hsome
      · rw [Function.update_of_ne hkey] at htext
        exact h.code id text htext
  · exact hdatabase ▸ h.keyed

/-- What is under a key to which no row points may be removed. -/
theorem delete (h : s.Limited) {key : String}
    (hfree : ∀ p ∈ s.database.problems, p.contentKey ≠ key)
    (hdatabase : s'.database = s.database)
    (htexts : s'.texts = Function.update s.texts key none) : s'.Limited := by
  constructor
  · constructor
    case contests => exact hdatabase ▸ h.contests
    case problems => exact hdatabase ▸ h.problems
    case statements =>
      rw [hdatabase]
      intro p hp
      obtain ⟨text, document, htext, hdocument⟩ := h.statements p hp
      exact ⟨text, document, by rw [htexts, Function.update_of_ne (hfree p hp), htext], hdocument⟩
    case submissions => exact hdatabase ▸ h.submissions
    case code =>
      intro id text htext
      rw [htexts] at htext
      by_cases hkey : Submission.codeKey id = key
      · rw [hkey, Function.update_self] at htext
        exact nomatch htext
      · rw [Function.update_of_ne hkey] at htext
        exact h.code id text htext
  · exact hdatabase ▸ h.keyed

/-- Rows come from before or from the call, and the texts are not touched. -/
theorem effect (h : s.Limited) {call : Database.Call} {answer : call.Answer}
    (hadmits : s.Admits (.database call))
    (heffect : s.database.Effect call answer s'.database) (htexts : s'.texts = s.texts) :
    s'.Limited := by
  -- A row stays where its statement is, even when it is replaced.
  have hplace : ∀ p ∈ s'.database.problems,
      p.contentKey = Problem.keyOf p.contestId p.id ∧ s'.HasStatement p.contentKey := by
    intro p hp
    unfold HasStatement
    rw [htexts]
    rcases heffect.place_of_mem hp with ⟨q, hq, hsame⟩ | hinsert
    · simp only [Problem.place, Prod.mk.injEq] at hsame
      obtain ⟨hcontest, hid, hkey⟩ := hsame
      rw [← hcontest, ← hid, ← hkey]
      exact ⟨h.keyed q hq, h.statements q hq⟩
    · cases hinsert
      exact hadmits.2
  constructor
  · constructor
    case contests =>
      intro row hrow
      rcases heffect.mem_contests hrow with hold | ⟨c, hcall, hnew⟩
      · exact h.contests row hold
      · rcases hcall with rfl | rfl <;> exact ContestTerms.row_withinLimits hadmits hnew
    case problems =>
      intro row hrow
      rcases heffect.mem_problems hrow with hold | ⟨p, hcall, hkept⟩
      · exact h.problems row hold
      · have hp : p.WithinLimits := by
          rcases hcall with rfl | rfl
          · exact hadmits.1
          · exact hadmits
        rw [hkept]
        exact ⟨hp.name, hp.score, hp.answer⟩
    case statements => exact fun p hp => (hplace p hp).2
    case submissions =>
      intro row hrow
      rcases heffect.mem_submissions hrow with hold | ⟨sub, rfl, hnew⟩
      · exact h.submissions row hold
      · exact hadmits row hnew
    case code =>
      rw [htexts]
      exact h.code
  · exact fun p hp => (hplace p hp).1

/-- A call that the stores admit keeps them within the limits, whatever the reply is. -/
theorem reply (h : s.Limited) {call : Call} {answer : call.Answer} (hadmits : s.Admits call)
    (hreply : Reply mayFail s call answer s') : s'.Limited := by
  cases call with
  | now | freshId => exact h.kept (hreply.kept rfl)
  | database call =>
    obtain ⟨heffect, hcontent⟩ := hreply.effect
    exact h.effect hadmits heffect (congrArg LawfulContentStore.texts hcontent)
  | content call =>
    cases answer with
    | error fault =>
      obtain ⟨hdatabase, htexts⟩ := hreply.content_error
      exact h.kept ⟨hdatabase, htexts⟩
    | ok result =>
      obtain ⟨hok, hdatabase, htexts⟩ := hreply.content_ok
      cases call with
      | get key => exact h.kept (hreply.kept rfl)
      | put key body mode =>
        exact h.put hadmits hdatabase (htexts.trans (Content.Map.answer_put_ok hok))
      | delete key =>
        exact h.delete hadmits hdatabase (htexts.trans (Content.Map.answer_delete_ok hok))

/-- A program goes on from a call that the stores admit. -/
theorem ask {α : Type} (h : s.Limited) {call : Call} {next : call.Answer → StoreProgram α}
    (hadmits : s.Admits call)
    (hnext : ∀ answer s', Reply mayFail s call answer s' → s'.Limited →
      Along mayFail Limited (next answer) s') : Along mayFail Limited (.ask call next) s :=
  .ask h fun answer s' hreply => hnext answer s' hreply (h.reply hadmits hreply)

end Limited

end Stores

/-! ## Operations on what requests hand in -/

namespace Operation

/-- What the operation is to write has passed the checks of a request. -/
def Checked : Operation → Prop
  | .createContest terms | .updateContest _ terms => terms.complaints = []
  | .createProblem _ new => new.complaints = []
  | .updateProblem _ _ change => change.complaints = []
  | .createSubmission _ new => new.complaints = []
  | _ => True

variable {κ : Type} [LawfulContentStore κ] {mayFail : Prop} {s : Stores κ}

open Stores (Limited)

private theorem limited_createContest {terms : ContestTerms} (h : terms.complaints = [])
    (hs : s.Limited) : Along mayFail Limited (createContest terms).run.run s := by
  rw [Contest.calls_create]
  cases terms.windowFlaw? with
  | some flaw => exact .done hs
  | none =>
    refine hs.ask trivial fun id s₁ _ hs₁ => hs₁.ask h ?_
    rintro (fault | _) s₂ _ hs₂ <;> exact .done hs₂

private theorem limited_updateContest {id : Uuid} {terms : ContestTerms}
    (h : terms.complaints = []) (hs : s.Limited) :
    Along mayFail Limited (updateContest id terms).run.run s := by
  rw [Contest.calls_update]
  cases terms.windowFlaw? with
  | some flaw => exact .done hs
  | none =>
    refine hs.ask h ?_
    rintro (fault | (_ | _)) s₁ _ hs₁ <;> exact .done hs₁

/-- The statement is there before the row points at it. -/
private theorem limited_createProblem {contestId : Uuid} {new : NewProblem}
    (h : new.complaints = []) (hs : s.Limited) :
    Along mayFail Limited (createProblem contestId new).run.run s := by
  have hsome : new.description ≠ "" := (NewProblem.withinLimits h default default).2
  rw [Problem.calls_create]
  refine hs.ask trivial ?_
  rintro (fault | (_ | _)) s₁ _ hs₁
  · exact .done hs₁
  · exact .done hs₁
  refine hs₁.ask trivial fun id s₂ _ hs₂ => hs₂.ask (.statement contestId id hsome) ?_
  rintro (fault | _) s₃ hput hs₃
  · exact .done hs₃
  obtain ⟨hok, -, htexts⟩ := hput.content_ok
  have hstatement : s₃.HasStatement (Problem.keyOf contestId id) := by
    refine ⟨_, ⟨new.description⟩, ?_, ProblemDocument.ofText?_print _, hsome⟩
    rw [htexts, Content.Map.answer_put_ok hok, Function.update_self]
    rfl
  refine hs₃.ask ⟨(NewProblem.withinLimits h contestId id).1, rfl, hstatement⟩ ?_
  rintro (fault | _) s₄ _ hs₄ <;> exact .done hs₄

/-- Where there is no row of a problem, none points at its statement. -/
private theorem admits_delete (hs : s.Limited) {contestId id : Uuid}
    (hgone : ¬ s.database.HasProblemOf contestId id) :
    s.Admits (.content (.delete (Problem.keyOf contestId id))) := by
  intro p hp hkey
  rw [hs.keyed p hp] at hkey
  obtain ⟨hcontest, hid⟩ := Problem.keyOf_inj.mp hkey
  exact hgone ⟨p, hp, hcontest, hid⟩

private theorem limited_replaceCalls {id : Uuid} {p : Problem} (hp : p.WithinLimits)
    (hkey : p.contentKey = Problem.keyOf p.contestId p.id) (wrote : Bool) (hs : s.Limited) :
    Along mayFail Limited (Problem.replaceCalls id p wrote) s := by
  refine hs.ask hp ?_
  rintro (fault | (_ | _)) s₁ hreplace hs₁
  · exact .done hs₁
  · -- There was no row to replace, and there still is none.
    have hgone : ¬ s₁.database.HasProblemOf p.contestId p.id := by
      rw [hreplace.effect.1.of_denies rfl]
      have hanswer := (Database.replaceProblem_ok hreplace.database_ok.1).1
      exact fun hrow => nomatch hanswer.mpr hrow
    cases wrote with
    | false => exact .done hs₁
    | true =>
      refine hs₁.ask (hkey ▸ admits_delete hs₁ hgone) fun _ s₂ _ hs₂ => .done hs₂
  · exact .done hs₁

/-- What a change leaves out is that of a row that was found, and so within the limits. -/
private theorem limited_updateProblem {contestId id : Uuid} {change : ProblemChange}
    (h : change.complaints = []) (hs : s.Limited) :
    Along mayFail Limited (updateProblem contestId id change).run.run s := by
  rw [Problem.calls_update]
  refine hs.ask trivial ?_
  rintro (fault | (_ | q)) s₁ hfind hs₁
  · exact .done hs₁
  · exact .done hs₁
  have hq : q ∈ s.database.problems :=
    (Database.mem_of_problem? (Except.ok.inj hfind.database_ok.1)).1
  obtain ⟨hlimits, hsome⟩ := ProblemChange.withinLimits h (hs.problems q hq)
  have hkey : q.contentKey = Problem.keyOf q.contestId q.id := hs.keyed q hq
  dsimp only
  cases hdescription : change.description with
  | none => exact limited_replaceCalls hlimits hkey false hs₁
  | some description =>
    have hfit : Content.Fit q.contentKey (Problem.document description) :=
      hkey ▸ .statement q.contestId q.id (hsome description hdescription)
    refine hs₁.ask hfit ?_
    rintro (fault | _) s₂ _ hs₂
    · exact .done hs₂
    · exact limited_replaceCalls hlimits hkey true hs₂

private theorem limited_deleteProblem {contestId id : Uuid} (hs : s.Limited) :
    Along mayFail Limited (deleteProblem contestId id).run.run s := by
  rw [Problem.calls_delete]
  refine hs.ask trivial ?_
  rintro (fault | (_ | q)) s₁ hfind hs₁
  · exact .done hs₁
  · exact .done hs₁
  obtain ⟨hq, rfl, rfl⟩ := Database.mem_of_problem? (Except.ok.inj hfind.database_ok.1)
  -- The row goes first, so that no row is left without its statement.
  refine hs₁.ask trivial ?_
  rintro (fault | (_ | _)) s₂ hremove hs₂
  · exact .done hs₂
  · exact .done hs₂
  have hgone := hremove.effect.1.not_hasProblemOf_removed.2
  refine hs₂.ask ?_ fun _ s₃ _ hs₃ => .done hs₃
  rw [hs.keyed q hq]
  exact admits_delete hs₂ hgone

private theorem limited_recordCalls {userId : Uuid} {new : NewSubmission} {code : Option String}
    (h : new.complaints = []) (hcode : ∀ body ∈ code, body ≠ "") (hs : s.Limited) :
    Along mayFail Limited (Submission.recordCalls userId new code) s := by
  refine hs.ask trivial fun id s₁ _ hs₁ => hs₁.ask trivial fun now s₂ _ hs₂ => ?_
  refine hs₂.ask (fun row hrow => NewSubmission.row_withinLimits h hrow) ?_
  rintro (fault | _) s₃ _ hs₃
  · exact .done hs₃
  cases code with
  | none => exact .done hs₃
  | some body =>
    refine hs₃.ask (.code id (hcode body rfl)) ?_
    rintro (fault | _) s₄ _ hs₄ <;> exact .done hs₄

private theorem limited_createSubmission {userId : Uuid} {new : NewSubmission}
    (h : new.complaints = []) (hs : s.Limited) :
    Along mayFail Limited (createSubmission userId new).run.run s := by
  have hproblem : ∀ code : Option String, (∀ body ∈ code, body ≠ "") →
      Along mayFail Limited (Submission.problemCalls userId new code) s := by
    intro code hcode
    refine hs.ask trivial ?_
    rintro (fault | (_ | problem)) s₁ _ hs₁
    · exact .done hs₁
    · exact .done hs₁
    dsimp only
    split
    · exact limited_recordCalls h hcode hs₁
    · exact .done hs₁
  rw [Submission.calls_create]
  split
  · exact hproblem none nofun
  · next body _ hsome =>
    refine hproblem (some body) ?_
    rintro _ ⟨⟩
    exact NewSubmission.code_ne_empty h body hsome
  · exact .done hs

/-- An operation on what was checked keeps the stores within the limits, wherever it is cut off. -/
theorem limited (operation : Operation) (h : operation.Checked) :
    Preserves mayFail (Limited (κ := κ)) operation.run.run := by
  cases operation with
  | createContest terms => exact fun s hs => limited_createContest h hs
  | updateContest id terms => exact fun s hs => limited_updateContest h hs
  | createProblem contestId new => exact fun s hs => limited_createProblem h hs
  | updateProblem contestId id change => exact fun s hs => limited_updateProblem h hs
  | deleteProblem contestId id => exact fun s hs => limited_deleteProblem hs
  | createSubmission userId new => exact fun s hs => limited_createSubmission h hs
  | _ =>
    -- All others add and change nothing that has a limit.
    refine .of_asks (within_run _) fun s call answer s' hask hreply hs => hs.reply ?_ hreply
    rcases hask with hreads | hwrites
    · exact Stores.admits_of_reads hreads s
    · unfold Stores.Admits
      split <;> trivial

end Operation

/-! ## Requests -/

namespace Http

variable {κ : Type} [LawfulContentStore κ] {mayFail : Prop} {r : Request}

open Stores (Limited)

section Parts

variable {ε α β : Type}

private theorem preserves_reading {x : ExceptT ε StoreProgram α} (h : Within (·.reads = true) x) :
    Preserves mayFail (Limited (κ := κ)) x.run :=
  .of_asks h fun _ _ _ _ hreads hreply hs => hs.kept (hreply.kept hreads)

/-- What comes after a check has passed it. -/
private theorem preserves_check {form : Form α} {a : α} {f : Unit → Handler β}
    (hf : form.complaints a = [] → Preserves mayFail (Limited (κ := κ)) (f ()).run) :
    Preserves mayFail (Limited (κ := κ)) (check form a >>= f).run := by
  unfold check Form.check
  cases hcomplaints : form.complaints a with
  | nil => exact hf hcomplaints
  | cons complaint rest => exact .done _

private theorem preserves_run {operation : Service α} {write : α → Json}
    {respond : α → Response}
    (h : Preserves mayFail (Limited (κ := κ)) (write <$> operation).run) :
    Preserves mayFail (Limited (κ := κ)) (do return respond (← run operation) :
      Handler Response).run :=
  .andThen (.adapt (.of_map h)) fun _ => .done _

end Parts

/-- Every endpoint that writes has checked what it writes. -/
theorem preserves_handle (r : Request) (e : Endpoint) :
    Preserves mayFail (Limited (κ := κ)) (handle r e).run := by
  have harguments : ∀ {α : Type} {x : Handler α} {f : α → Handler Response},
      Within (·.reads = true) x → (∀ a, Preserves mayFail (Limited (κ := κ)) (f a).run) →
        Preserves mayFail (Limited (κ := κ)) (x >>= f).run :=
    fun h hf => .andThen (preserves_reading h) hf
  cases e with
  | health | listContests | getContest | listProblems | getProblem | listSubmissions
  | getSubmission | getSubmissionStatus => exact preserves_reading (within_handle rfl)
  | adminProbe => exact harguments within_caller fun _ => .done _
  | register id =>
    refine harguments within_caller fun userId => harguments (within_identifier id) fun id => ?_
    exact preserves_run (Operation.limited (.register id userId) trivial)
  | unregister id =>
    refine harguments within_caller fun userId => harguments (within_identifier id) fun id => ?_
    exact preserves_run (Operation.limited (.unregister id userId) trivial)
  | createSubmission =>
    refine harguments within_caller fun userId => harguments (within_body _) fun new => ?_
    refine preserves_check fun hnew => ?_
    refine harguments
      (Contest.within_checkVisibility (fun _ h => h) new.contestId userId).adapt fun _ => ?_
    exact preserves_run (Operation.limited (.createSubmission userId new) hnew)
  | createContest =>
    refine harguments (within_body _) fun terms => preserves_check fun hterms => ?_
    exact preserves_run (Operation.limited (.createContest terms) hterms)
  | updateContest id =>
    refine harguments (within_identifier id) fun id => harguments (within_body _) fun terms => ?_
    refine preserves_check fun hterms => ?_
    exact preserves_run (Operation.limited (.updateContest id terms) hterms)
  | deleteContest id =>
    refine harguments (within_identifier id) fun id => ?_
    exact preserves_run (Operation.limited (.deleteContest id) trivial)
  | listRegistrations id =>
    refine harguments (within_identifier id) fun id => ?_
    exact preserves_run (Operation.limited (.listRegistrations id) trivial)
  | createProblem id =>
    refine harguments (within_identifier id) fun id => harguments (within_body _) fun new => ?_
    refine preserves_check fun hnew => ?_
    exact preserves_run (Operation.limited (.createProblem id new) hnew)
  | updateProblem id problemId =>
    refine harguments (within_identifier id) fun id => ?_
    refine harguments (within_identifier problemId) fun problemId => ?_
    refine harguments (within_body _) fun change => preserves_check fun hchange => ?_
    exact preserves_run (Operation.limited (.updateProblem id problemId change) hchange)
  | deleteProblem id problemId =>
    refine harguments (within_identifier id) fun id => ?_
    refine harguments (within_identifier problemId) fun problemId => ?_
    exact preserves_run (Operation.limited (.deleteProblem id problemId) trivial)
  | updateLeaderboard id userId =>
    refine harguments (within_identifier id) fun id => ?_
    refine harguments (within_identifier userId) fun userId => ?_
    refine harguments (within_body _) fun patch => ?_
    exact preserves_run (Operation.limited (.updateLeaderboard id userId patch) trivial)

theorem within_admitAdmin : Within (·.reads = true) (admitAdmin r) := by
  refine within_caller.bind fun userId => ?_
  have hasked : Within (·.reads = true) (Service.database (.isAdmin userId)) := .database rfl
  refine hasked.adapt.bind fun isAdmin => ?_
  cases isAdmin with
  | false => exact .throw _
  | true => exact .pure _

theorem preserves_admitAdmin {x : Handler Response}
    (hx : Preserves mayFail (Limited (κ := κ)) x.run) :
    Preserves mayFail (Limited (κ := κ)) (admitAdmin r >>= fun _ => x).run :=
  .andThen (preserves_reading within_admitAdmin) fun _ => hx

theorem preserves_respond {handler : Handler Response}
    (hhandler : Preserves mayFail (Limited (κ := κ)) handler.run) :
    Preserves mayFail (Limited (κ := κ)) (respond handler) := by
  refine Preserves.bind hhandler fun result => ?_
  cases result <;> exact .done _

/-- No request takes the stores out of the limits, wherever it is cut off. -/
theorem preserves_serve (r : Request) : Preserves mayFail (Limited (κ := κ)) (serve r) := by
  unfold serve
  split
  · exact .done _
  · cases Route.ofPath? r.address.path with
    | none => exact .done _
    | some route =>
      dsimp only
      cases route.endpoint? r.method with
      | none =>
        refine Preserves.bind (preserves_respond ?_) fun _ => .done _
        cases route.isAdmin with
        | false => exact .done _
        | true => exact preserves_admitAdmin (.done _)
      | some e =>
        refine Preserves.bind (preserves_respond ?_) fun _ => .done _
        cases e.isAdmin with
        | false => exact preserves_handle r e
        | true => exact preserves_admitAdmin (preserves_handle r e)

end Http

/-! ## Stores that requests lead to -/

section Reached

variable {κ : Type} [LawfulContentStore κ]

/-- Stores that are reached from an empty database and from no code, by requests at any instants and
    with any identifiers drawn, of which any call may fail and that may be cut off anywhere, and by
    what others write to the tables. -/
inductive Reached : Stores κ → Prop where
  | start {s : Stores κ} (hempty : s.database = .empty)
      (hcode : ∀ id, s.texts (Submission.codeKey id) = none) : Reached s
  | request {s t : Stores κ} {q : StoreProgram Http.Response} (h : Reached s) (now : Instant)
      (ids : IdSource) (r : Http.Request)
      (hcourse : Course True (Http.serve r) { s with now, ids } q t) : Reached t
  | outside {s : Stores κ} {db : Database} (h : Reached s) (hchange : s.database.Outside db) :
      Reached { s with database := db }

/-- Others touch no contest and no problem, and of a submission only its grade. -/
theorem Stores.Limited.outside {s : Stores κ} (h : s.Limited) {db : Database}
    (hchange : s.database.Outside db) : Stores.Limited { s with database := db } := by
  cases hchange with
  | added hadded =>
    cases hadded <;> exact ⟨⟨h.contests, h.problems, h.statements, h.submissions, h.code⟩, h.keyed⟩
  | graded id g =>
    refine ⟨⟨h.contests, h.problems, h.statements, fun row hrow => ?_, h.code⟩, h.keyed⟩
    obtain ⟨old, hold, rfl⟩ := List.mem_map.mp hrow
    have hlimits := h.submissions old hold
    split
    · exact ⟨hlimits.choices, hlimits.language⟩
    · exact hlimits
  | result => exact ⟨⟨h.contests, h.problems, h.statements, h.submissions, h.code⟩, h.keyed⟩

theorem Reached.limited {s : Stores κ} (h : Reached s) : s.Limited := by
  induction h with
  | @start s hempty hcode =>
    constructor
    · constructor
      case code =>
        intro id text htext
        rw [hcode id] at htext
        exact nomatch htext
      all_goals
        rw [hempty]
        exact fun row hrow => absurd hrow List.not_mem_nil
    · unfold Database.Keyed
      rw [hempty]
      exact fun p hp => absurd hp List.not_mem_nil
  | @request s _ _ _ now ids r hcourse ih =>
    have hlimited : Stores.Limited { s with now, ids } := ih.kept ⟨rfl, rfl⟩
    exact Http.preserves_serve r _ hlimited _ _ hcourse
  | outside _ hchange ih => exact ih.outside hchange

/-- Requests that are served to their ends, without any call failing, are one way to go on. -/
theorem Reached.visited {s : Stores κ} (h : Reached s) (visits : List Visit) :
    Reached (visits.foldl (fun s v => (s.visit v).2) s) := by
  induction visits generalizing s with
  | nil => exact h
  | cons v rest ih => exact ih (h.request v.now v.ids v.request (.of_run _ _))

/-- In all stores that requests lead to, every contest, every problem with its statement, every
    submission and its code are within the limits that requests are checked against. -/
theorem Stores.limits_hold {s : Stores κ} (h : Reached s) : s.WithinLimits :=
  h.limited.toWithinLimits

end Reached

/-! ## A submission to a contest -/

/-- Stores with a student in the first year, who is an administrator too, and nothing else. -/
def tutorStores : Stores Content.Memory :=
  { blankStores with database :=
      { Database.empty with
        users := [{ (default : UserProfile) with id := .ofNat 7, currentYear := 1 }]
        admins := [.ofNat 7] } }

theorem tutorStores_reached : Reached tutorStores := by
  have hstart : Reached blankStores := .start rfl fun _ => rfl
  have huser := hstart.outside
    (.added (.user { (default : UserProfile) with id := .ofNat 7, currentYear := 1 }))
  exact huser.outside (.added (.admin (.ofNat 7)))

/-- What the student sends at dawn, when the next identifier to be drawn is that of `n`. -/
def tutorVisit (n : Nat) (path body : String) : Visit where
  now := dawn
  ids := ⟨[], n⟩
  request := { contestRequest "Quiz" with address := ⟨path, none⟩, body := body }

/-- The student creates a contest with a problem, registers and submits code. -/
def quizVisits : List Visit :=
  let contest := (IdSource.numbered 1).text
  [tutorVisit 1 "/api/v1/admin/contests" hourTerms.toJson.print,
    tutorVisit 2 ("/api/v1/admin/contests/" ++ contest ++ "/problems")
      (NewProblem.toJson ⟨"Sum", "Add two numbers.", 10, .code, []⟩).print,
    tutorVisit 3 ("/api/v1/contests/" ++ contest ++ "/register") "",
    tutorVisit 4 "/api/v1/submissions"
      (NewSubmission.toJson
        ⟨IdSource.numbered 1, IdSource.numbered 2, .code, some "c++", some "main", []⟩).print]

/-- The stores after the submission. -/
def quizStores : Stores Content.Memory :=
  quizVisits.foldl (fun s v => (s.visit v).2) tutorStores

/-- All four are served, so there is something that each of the limits is about. -/
theorem quiz_within_limits :
    (quizStores.database.contests.length = 1 ∧ quizStores.database.problems.length = 1 ∧
      quizStores.database.submissions.length = 1 ∧
      quizStores.texts (Submission.codeKey (IdSource.numbered 4)) = some "main") ∧
      quizStores.WithinLimits := by
  have hreached : Reached quizStores := tutorStores_reached.visited quizVisits
  exact ⟨by decide +kernel, Stores.limits_hold hreached⟩

end ContestPlatform
