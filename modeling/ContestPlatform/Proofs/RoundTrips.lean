import ContestPlatform.Contest.Json
import ContestPlatform.Problem.Json
import ContestPlatform.Proofs.InstantText
import ContestPlatform.Proofs.JsonReading
import ContestPlatform.Proofs.UuidText

/-!
# Records that are read back

Contests, their terms, problems and what is said of problems are read back from their JSON texts as
they were written, whatever strings, integers and identifiers they have. Of instants only those are
meant that can be read from some text at all: there are no others in a record that has been read.
The detail of a contest has members beside those of the contest, and they do not matter.
-/

namespace ContestPlatform

open Json (Carries Fields FieldReader Reader Values)

/-! ## Values of fields -/

/-- An instant that can be read from some text. -/
def Instant.IsReadable (t : Instant) : Prop :=
  ∃ s, Instant.ofText? s = some t

namespace Json

theorem carries_uuid (u : Uuid) : Carries Reader.uuid (Json.uuid u) u :=
  (carries_text u.text).filterMap u.ofText?_text

theorem carries_instant {t : Instant} (h : t.IsReadable) :
    Carries Reader.instant (Json.instant t) t := by
  have htold := Instant.exists_ofText?_iff.mp h
  exact (carries_text t.text).filterMap htold.ofText?_text

end Json

theorem ProblemKind.carries (k : ProblemKind) : Carries ProblemKind.read k.toJson k := by
  apply Json.carries_word
  cases k <;> rfl

/-! ## Contests -/

/-- Terms with instants that can be read. -/
structure ContestTerms.IsReadable (t : ContestTerms) : Prop where
  registrationStart : t.registrationStart.IsReadable
  registrationEnd : t.registrationEnd.IsReadable
  start : t.start.IsReadable
  finish : t.finish.IsReadable

namespace ContestTerms

theorem written {t : ContestTerms} (h : t.IsReadable) :
    (fields (.required "description" Reader.text)).Written
      (t.name, t.description, t.registrationStart, t.registrationEnd, t.start, t.finish, t.eligible,
        ()) t.members :=
  .cons (Json.carries_text _) <| .cons (Json.carries_text _) <|
  .cons (Json.carries_instant h.registrationStart) <|
  .cons (Json.carries_instant h.registrationEnd) <|
  .cons (Json.carries_instant h.start) <|
  .cons (Json.carries_instant h.finish) <|
  .cons (Json.carries_int32List _) .nil

theorem read_back {t : ContestTerms} (h : t.IsReadable) :
    ContestTerms.read.ofText t.toJson.print = .ok t := by
  have hnames : (fields (.required "description" Reader.text)).names.Nodup := by decide
  exact Json.ofText_record (written h) hnames ofValues

end ContestTerms

namespace Contest

/-- The fields of a contest: its identifier, and those of its terms. -/
def fields : Fields [Uuid, String, String, Instant, Instant, Instant, Instant, List Int32] :=
  .cons (.required "id" Reader.uuid) (ContestTerms.fields (.required "description" Reader.text))

/-- A contest from the values of its fields. -/
def ofValues :
    Values [Uuid, String, String, Instant, Instant, Instant, Instant, List Int32] → Contest
  | (id, values) => .ofTerms id (ContestTerms.ofValues values)

theorem read_eq : Contest.read = fields.read.map ofValues :=
  rfl

/-- A contest is read back from its members, whatever members with other names stand after them. -/
theorem read_back_beside {c : Contest} (h : c.toContestTerms.IsReadable)
    {extra : List (String × Json)} (hextra : ∀ m ∈ extra, m.1 ∉ fields.names ∧ Fields.Skipped m.2) :
    Contest.read.ofText (Json.object (c.members ++ extra)).print = .ok c := by
  have hwritten : fields.Written (c.id, _) c.members :=
    .cons (Json.carries_uuid c.id) (ContestTerms.written h)
  have hnames : fields.names.Nodup := by decide
  rw [read_eq]
  exact Json.ofText_object hwritten hnames hextra ofValues

theorem read_back {c : Contest} (h : c.toContestTerms.IsReadable) :
    Contest.read.ofText c.toJson.print = .ok c := by
  rw [toJson, ← List.append_nil c.members]
  exact read_back_beside h (List.forall_mem_nil _)

/-- The statuses of a detail, and whether the viewer is registered, are skipped. -/
theorem read_detail {d : ContestDetail} (h : d.contest.toContestTerms.IsReadable) :
    Contest.read.ofText d.toJson.print = .ok d.contest := by
  have hnames : "registration_status" ∉ fields.names ∧ "running_status" ∉ fields.names ∧
      "is_registered" ∉ fields.names := by decide
  unfold ContestDetail.toJson
  rw [List.append_assoc]
  apply read_back_beside h
  intro m hm
  simp only [List.cons_append, List.nil_append, List.mem_cons] at hm
  rcases hm with rfl | rfl | hm
  · exact ⟨hnames.1, Fields.skipped_text _⟩
  · exact ⟨hnames.2.1, Fields.skipped_text _⟩
  · cases hregistered : d.isRegistered with
    | none => simp [hregistered, Json.optional] at hm
    | some b =>
      simp only [hregistered, Json.optional, List.mem_singleton] at hm
      subst hm
      exact ⟨hnames.2.2, Fields.skipped_bool b⟩

end Contest

/-! ## Problems -/

theorem Problem.read_back (p : Problem) : Problem.read.ofText p.toJson.print = .ok p := by
  have hwritten : Problem.fields.Written (p.id, p.contestId, p.name, p.contentKey, p.score, p.kind,
      p.hasMultipleAnswers, p.answer, ()) _ :=
    .cons (Json.carries_uuid _) <| .cons (Json.carries_uuid _) <| .cons (Json.carries_text _) <|
    .cons (Json.carries_text _) <| .cons (Json.carries_int32 _) <| .cons p.kind.carries <|
    .cons (Json.carries_bool _) <| .cons (Json.carries_int32List _) .nil
  exact Json.ofText_record hwritten (by decide) _

theorem NewProblem.read_back (p : NewProblem) : NewProblem.read.ofText p.toJson.print = .ok p := by
  have hwritten : NewProblem.fields.Written
      (p.name, p.description, p.score, p.kind, p.answer, ()) _ :=
    .cons (Json.carries_text _) <| .cons (Json.carries_text _) <| .cons (Json.carries_int32 _) <|
    .cons p.kind.carries <| .cons (Json.carries_int32List _) .nil
  exact Json.ofText_record hwritten (by decide) _

/-- What a change leaves as it is is written as null and read as absent. -/
theorem ProblemChange.read_back (c : ProblemChange) :
    ProblemChange.read.ofText c.toJson.print = .ok c := by
  have hwritten : ProblemChange.fields.Written
      (c.name, c.description, c.score, c.kind, c.answer, ()) _ :=
    .cons (Json.carries_orNull Json.carries_text nofun _) <|
    .cons (Json.carries_orNull Json.carries_text nofun _) <|
    .cons (Json.carries_orNull Json.carries_int32 nofun _) <|
    .cons (Json.carries_orNull ProblemKind.carries nofun _) <|
    .cons (Json.carries_orNull Json.carries_int32List nofun _) .nil
  exact Json.ofText_record hwritten (by decide) _

theorem ProblemDocument.read_back (d : ProblemDocument) :
    ProblemDocument.read.ofText d.toJson.print = .ok d :=
  Json.ofText_record (.cons (Json.carries_text d.description) .nil) (by decide) _

/-! ## All records -/

/-- Every record is read back from its own text, and a contest also from the text of a detail of it,
    whether or not that says if the viewer is registered. -/
theorem records_read_back :
    (∀ c : Contest, c.IsReadable → Contest.read.ofText c.toJson.print = .ok c) ∧
    (∀ t : ContestTerms, t.IsReadable → ContestTerms.read.ofText t.toJson.print = .ok t) ∧
    (∀ p : Problem, Problem.read.ofText p.toJson.print = .ok p) ∧
    (∀ p : NewProblem, NewProblem.read.ofText p.toJson.print = .ok p) ∧
    (∀ c : ProblemChange, ProblemChange.read.ofText c.toJson.print = .ok c) ∧
    (∀ d : ProblemDocument, ProblemDocument.read.ofText d.toJson.print = .ok d) ∧
    (∀ d : ContestDetail, d.contest.IsReadable →
      Contest.read.ofText d.toJson.print = .ok d.contest) :=
  ⟨fun _ => Contest.read_back, fun _ => ContestTerms.read_back, Problem.read_back,
    NewProblem.read_back, ProblemChange.read_back, ProblemDocument.read_back,
    fun _ => Contest.read_detail⟩

/-- A contest that ends on a leap day of a year after 9999 and opens for registration in a leap
    second, with texts and cohorts at the edges of what there is. -/
def farContest : Contest where
  id := Uuid.ofNat 1
  name := "\"far\"\\"
  description := "\x00\n\x7f"
  registrationStart := ⟨1483228799, 1500000000⟩
  registrationEnd := ⟨-62167219201, 123456789⟩
  start := ⟨253402300800, 120000000⟩
  finish := ⟨253407484799, 999999000⟩
  eligible := [Int32.minValue, 0, Int32.maxValue]

theorem farContest_read_back :
    farContest.IsReadable ∧ Contest.read.ofText farContest.toJson.print = .ok farContest ∧
      Contest.read.ofText (farContest.detailAt farContest.start (some false)).toJson.print =
        .ok farContest := by
  -- Each of the instants is what some text stands for, in a form of its own.
  have hreadable : farContest.IsReadable :=
    ⟨⟨"2017-1-1 5:29:60.5 +05:30", by decide⟩, ⟨"-1-12-31T23:59:59.1234567891Z", by decide⟩,
      ⟨"+10000-01-01t00:00:00.12 utc", by decide⟩, ⟨"+10000-02-29T23:59:59.999999Z", by decide⟩⟩
  obtain ⟨hcontest, -, -, -, -, -, hdetail⟩ := records_read_back
  exact ⟨hreadable, hcontest farContest hreadable,
    hdetail (farContest.detailAt farContest.start (some false)) hreadable⟩

end ContestPlatform
