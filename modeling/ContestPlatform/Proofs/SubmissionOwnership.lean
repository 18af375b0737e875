import ContestPlatform.Proofs.Serving
import ContestPlatform.Proofs.SubmissionRecords

/-!
# What strangers learn of a submission

A submission is shown to its owner only. Who asks for the submission of another user is told that it
belongs to another user, but not before it was read: if it cannot be read, the stranger is told why,
as its owner would be. A state that is not known stands in the way of both endpoints, code that is
not there stands in the way of the details. Where nothing stands in the way, what a stranger is told
does not depend on anything that the submission keeps.
-/

namespace ContestPlatform

namespace Submission

variable {κ : Type} [ContentStore κ]

/-- What stands in the way of the status of a submission, whoever asks. -/
def statusObstacle? (row : Database.SubmissionRow) : Option Fault :=
  match row.status? with
  | some _ => none
  | none => some (Database.unknownState row)

/-- What stands in the way of the details of a submission, whoever asks. -/
def obstacle? (s : Stores κ) (row : Database.SubmissionRow) : Option Fault :=
  match row.submission? with
  | none => some (Database.unknownState row)
  | some submission =>
    match submission.kind with
    | .mcq => none
    | .code =>
      match (ContentStore.answer s.content (.get (codeKey submission.id))).1 with
      | .ok _ => none
      | .error fault => some (.content fault)

/-- A result that is what was read of a row, unless an obstacle was met. -/
def Reads {α : Type} (owner : α → Uuid) (row : Database.SubmissionRow) :
    Option Fault → Except Fault α → Prop
  | some fault, result => result = .error fault
  | none, result => ∃ found, result = .ok found ∧ owner found = row.userId

variable {s : Stores κ} {id : Uuid} {row : Database.SubmissionRow}

/-- The status is read off the row, or the obstacle is met. -/
theorem perform_status_of_row (hrow : s.database.submissionRow? id = some row) :
    Reads SubmissionStatus.userId row (statusObstacle? row) (s.perform (status id)).1 := by
  rw [status, Stores.perform_bind, Stores.perform_database]
  simp only [statusObstacle?, Database.answer, Database.status?, hrow]
  cases hstatus : row.status? with
  | none => rfl
  | some found =>
    refine ⟨found, rfl, ?_⟩
    obtain ⟨state, -, rfl⟩ := Option.map_eq_some_iff.mp hstatus
    rfl

theorem userId_of_submission? {submission : Submission}
    (h : row.submission? = some submission) : submission.userId = row.userId := by
  obtain ⟨state, -, h⟩ := Option.bind_eq_some_iff.mp h
  cases h
  rfl

/-- The details are put together from the row, the code and the results, or the obstacle is met. -/
theorem perform_details_of_row (hrow : s.database.submissionRow? id = some row) :
    Reads (·.submission.userId) row (obstacle? s row) (s.perform (details id)).1 := by
  rw [details, Stores.perform_bind, Stores.perform_database]
  simp only [obstacle?, Database.answer, Database.submission?, hrow, Database.readSubmission]
  cases hread : row.submission? with
  | none => rfl
  | some submission =>
    have howner := userId_of_submission? hread
    simp only [Except.map, Stores.perform_bind, Stores.perform_found_some]
    cases hkind : submission.kind with
    | mcq => exact ⟨_, rfl, howner⟩
    | code =>
      -- The code is got before the results are read.
      dsimp only
      rw [Stores.perform_bind, Stores.perform_map, Stores.perform_content]
      cases (ContentStore.answer s.content (.get (codeKey submission.id))).1 with
      | error fault => rfl
      | ok body => exact ⟨⟨submission, some body, _⟩, rfl, howner⟩

end Submission

namespace Http

section Strangers

variable {κ : Type} [ContentStore κ] {r : Request} {segment : String} {id userId : Uuid}
  {s : Stores κ} {row : Database.SubmissionRow}

theorem run_admitOwner_of_stranger {owner : Uuid} (hother : owner ≠ userId) (s : Stores κ) :
    s.run (admitOwner userId owner id).run = (.error (.fault (.notOwner .submission id)), s) := by
  unfold admitOwner
  rw [if_pos hother.symm]
  rfl

/-- What is read is not shown to a stranger. -/
theorem run_shown_of_stranger {α : Type} {operation : Service α} {owner : α → Uuid}
    {respond : α → Response} {obstacle : Option Fault} (hother : row.userId ≠ userId)
    (hreads : Submission.Reads owner row obstacle (s.perform operation).1) :
    (s.run (do
      let found ← run operation
      admitOwner userId (owner found) id
      return respond found : Handler Response).run).1 =
        .error (.fault (obstacle.getD (.notOwner .submission id))) := by
  rw [Stores.run_bind, run_run]
  generalize s.perform operation = outcome at hreads ⊢
  obtain ⟨result, t⟩ := outcome
  cases obstacle with
  | some fault =>
    obtain rfl : result = .error fault := hreads
    rfl
  | none =>
    obtain ⟨found, rfl, howner⟩ := hreads
    simp only [Except.mapError]
    rw [Stores.run_bind, run_admitOwner_of_stranger (howner ▸ hother)]
    rfl

/-- The response to a request that ends with a fault, after it has read. -/
theorem response_of_fault {e : Endpoint} (hmatch : Matches r e) {fault : Fault}
    (hfault : (s.run (Veil.guarded r e).run).1 = .error (.fault fault)) :
    (s.run (serve r)).1 = answered r fault := by
  rw [run_serve_of_matches hmatch, hfault]
  rfl

/-- A stranger who asks for the status is told what stands in its way, and if nothing does, that
    the submission belongs to another user. -/
theorem status_for_stranger (hmatch : Matches r (.getSubmissionStatus segment))
    (hcaller : caller? r = some userId)
    (hsegment : (Text.Percent.decodeText? segment).bind Uuid.ofText? = some id)
    (hrow : s.database.submissionRow? id = some row) (hother : row.userId ≠ userId) :
    (s.run (serve r)).1 =
      answered r ((Submission.statusObstacle? row).getD (.notOwner .submission id)) := by
  apply response_of_fault hmatch
  rw [guarded_of_open rfl]
  show (s.run (caller r >>= _).run).1 = _
  rw [caller_of_some hcaller, pure_bind, identifier_of_some hsegment, pure_bind]
  exact run_shown_of_stranger hother (Submission.perform_status_of_row hrow)

/-- A stranger who asks for the details is told what stands in their way, and if nothing does, that
    the submission belongs to another user. -/
theorem details_for_stranger (hmatch : Matches r (.getSubmission segment))
    (hcaller : caller? r = some userId)
    (hsegment : (Text.Percent.decodeText? segment).bind Uuid.ofText? = some id)
    (hrow : s.database.submissionRow? id = some row) (hother : row.userId ≠ userId) :
    (s.run (serve r)).1 =
      answered r ((Submission.obstacle? s row).getD (.notOwner .submission id)) := by
  apply response_of_fault hmatch
  rw [guarded_of_open rfl]
  show (s.run (caller r >>= _).run).1 = _
  rw [caller_of_some hcaller, pure_bind, identifier_of_some hsegment, pure_bind]
  exact run_shown_of_stranger hother (Submission.perform_details_of_row hrow)

/-! ### What a stranger is told -/

theorem status_answered (r : Request) (fault : Fault) : (answered r fault).status = fault.status :=
  status_withoutBody r _

/-- A request for the submission with an identifier, with what may stand in the way of an answer:
    for its status, or for its details. -/
inductive AsksFor (r : Request) (id : Uuid) :
    (Stores κ → Database.SubmissionRow → Option Fault) → Prop where
  | status {segment : String} (hmatch : Matches r (.getSubmissionStatus segment))
      (hsegment : (Text.Percent.decodeText? segment).bind Uuid.ofText? = some id) :
      AsksFor r id fun _ row => Submission.statusObstacle? row
  | details {segment : String} (hmatch : Matches r (.getSubmission segment))
      (hsegment : (Text.Percent.decodeText? segment).bind Uuid.ofText? = some id) :
      AsksFor r id Submission.obstacle?

variable {obstacle? : Stores κ → Database.SubmissionRow → Option Fault}

theorem answer_for_stranger (hasks : AsksFor r id obstacle?) (hcaller : caller? r = some userId)
    (hrow : s.database.submissionRow? id = some row) (hother : row.userId ≠ userId) :
    (s.run (serve r)).1 = answered r ((obstacle? s row).getD (.notOwner .submission id)) := by
  cases hasks with
  | status hmatch hsegment => exact status_for_stranger hmatch hcaller hsegment hrow hother
  | details hmatch hsegment => exact details_for_stranger hmatch hcaller hsegment hrow hother

/-- Nothing that stands in the way has the status of what belongs to another user. -/
theorem status_of_obstacle (hasks : AsksFor r id obstacle?) {fault : Fault}
    (hobstacle : obstacle? s row = some fault) : fault.status ≠ 403 := by
  have hinternal : (Database.unknownState row).status = 500 := rfl
  cases hasks with
  | status =>
    simp only [Submission.statusObstacle?] at hobstacle
    split at hobstacle
    · exact nomatch hobstacle
    · cases hobstacle
      rw [hinternal]
      decide
  | details =>
    unfold Submission.obstacle? at hobstacle
    repeat' split at hobstacle
    · cases hobstacle
      rw [hinternal]
      decide
    · exact nomatch hobstacle
    · exact nomatch hobstacle
    · next fault' _ =>
      cases hobstacle
      cases fault' <;> simp [Fault.status, Fault.kind, FaultKind.status]

/-- Who asks for the submission of another user is told what stands in the way of reading it, and
    that it belongs to another user exactly if nothing does. Two states in which the same stands in
    the way have the same answer, whatever the submission keeps in each of them. -/
theorem told_to_stranger (hasks : AsksFor r id obstacle?) (hcaller : caller? r = some userId)
    (hrow : s.database.submissionRow? id = some row) (hother : row.userId ≠ userId) :
    (s.run (serve r)).1 = answered r ((obstacle? s row).getD (.notOwner .submission id)) ∧
    ((s.run (serve r)).1 = answered r (.notOwner .submission id) ↔ obstacle? s row = none) ∧
    ∀ (s' : Stores κ) (row' : Database.SubmissionRow),
      s'.database.submissionRow? id = some row' → row'.userId ≠ userId →
      obstacle? s' row' = obstacle? s row → (s'.run (serve r)).1 = (s.run (serve r)).1 := by
  have hanswer := answer_for_stranger hasks hcaller hrow hother
  refine ⟨hanswer, ⟨fun hnotOwner => ?_, fun hnone => ?_⟩, fun s' row' hrow' hother' hsame => ?_⟩
  · cases hobstacle : obstacle? s row with
    | none => rfl
    | some fault =>
      -- The response has the status of the obstacle, which is another one.
      rw [hanswer, hobstacle] at hnotOwner
      have hstatus := congrArg Response.status hnotOwner
      rw [status_answered, status_answered] at hstatus
      exact absurd hstatus (status_of_obstacle hasks hobstacle)
  · rw [hanswer, hnone]
    rfl
  · rw [hanswer, answer_for_stranger hasks hcaller hrow' hother', hsame]

end Strangers

/-! ### Code that could not be written -/

open Interleaving Submission

/-- A request for the details of the submission that is handed in first, of a user who did not. -/
def strangerRequest : Request where
  method := "GET"
  address := ⟨"/api/v1/submissions/" ++ (Uuid.ofNat 3).text, none⟩
  headers := [("x-user-id", (Uuid.ofNat 8).text)]
  body := ""

theorem strangerRequest_asks :
    AsksFor (κ := Content.Memory) strangerRequest (.ofNat 3) Submission.obstacle? := by
  have hmatch : Matches strangerRequest (.getSubmission (Uuid.ofNat 3).text) :=
    ⟨.submission (Uuid.ofNat 3).text, by decide +kernel, by decide +kernel⟩
  exact .details hmatch (by decide +kernel)

/-- The code of a submission cannot be written after its row was. -/
private theorem reachable_without_code :
    ∃ P P' : Pool Content.Memory,
      Reachable unrestrained (Pool.initial codeStores) P ∧
      Reachable unrestrained (Pool.initial codeStores) P' ∧
      P.stores.database = P'.stores.database ∧
      ∃ row, P.stores.database.submissionRow? (.ofNat 3) = some row ∧ row.userId = .ofNat 7 ∧
        Submission.obstacle? P.stores row =
          some (.content (.notFound (Submission.codeKey (.ofNat 3)))) ∧
        Submission.obstacle? P'.stores row = none := by
  have hsteps := Relation.ReflTransGen.refl (r := Step unrestrained)
    (a := Pool.initial codeStores)
  replace hsteps := hsteps.tail (.begin_ _ (.createSubmission (.ofNat 7) echoCode) trivial)
  replace hsteps := hsteps.tail (.call (i := 0) _ rfl (.database _ fun _ => trivial))
  replace hsteps := hsteps.tail (.call (i := 0) _ rfl (.fresh (.ofNat 3) ?_))
  replace hsteps := hsteps.tail (.call (i := 0) _ rfl (.clock ⟨1704067200, 0⟩))
  replace hsteps := hsteps.tail (.call (i := 0) _ rfl (.database _ fun _ => trivial))
  · refine ⟨_, _, hsteps.tail (.call (i := 0) _ rfl
      (.trouble _ (Except.error (ContentFault.io "")) ⟨_, rfl⟩ trivial)),
      hsteps.tail (.call (i := 0) _ rfl (.content _ fun _ => trivial)), rfl, _, rfl, rfl, ?_, ?_⟩
    · rfl
    · rfl
  · -- Only the problem was looked for before the identifier is drawn.
    rintro task ⟨e, he, -, h⟩
    rcases he with _ | ⟨_, ⟨⟩⟩
    exact nomatch h

/-- After the code of a submission could not be written, a stranger who asks for the details is told
    that there is no code, and not that the submission belongs to another user, as with code. -/
theorem missing_code_told_to_stranger :
    ∃ P P' : Pool Content.Memory,
      Reachable unrestrained (Pool.initial codeStores) P ∧
      Reachable unrestrained (Pool.initial codeStores) P' ∧
      P.stores.database = P'.stores.database ∧
      caller? strangerRequest = some (.ofNat 8) ∧
      (∃ row, P.stores.database.submissionRow? (.ofNat 3) = some row ∧ row.userId ≠ .ofNat 8) ∧
      (P.stores.run (serve strangerRequest)).1 =
        answered strangerRequest (.content (.notFound (codeKey (.ofNat 3)))) ∧
      (P.stores.run (serve strangerRequest)).1 ≠
        answered strangerRequest (.notOwner .submission (.ofNat 3)) ∧
      (P'.stores.run (serve strangerRequest)).1 =
        answered strangerRequest (.notOwner .submission (.ofNat 3)) := by
  obtain ⟨P, P', hreach, hreach', hsame, row, hrow, howner, hmissing, hthere⟩ :=
    reachable_without_code
  have hcaller : caller? strangerRequest = some (.ofNat 8) := by decide +kernel
  have hother : row.userId ≠ .ofNat 8 := by
    rw [howner]
    decide
  have hanswer := answer_for_stranger strangerRequest_asks hcaller hrow hother
  have hanswer' := answer_for_stranger strangerRequest_asks hcaller (hsame ▸ hrow) hother
  rw [hmissing] at hanswer
  rw [hthere] at hanswer'
  refine ⟨P, P', hreach, hreach', hsame, hcaller, ⟨row, hrow, hother⟩, hanswer, ?_, hanswer'⟩
  rw [hanswer]
  intro heq
  have hstatus := congrArg Response.status heq
  rw [status_answered, status_answered] at hstatus
  exact absurd hstatus (by decide)

/-- With its code a submission is not shown to a stranger. -/
theorem stranger_turned_away :
    ∃ P : Pool Content.Memory, Reachable unrestrained (Pool.initial codeStores) P ∧
      (P.stores.run (serve strangerRequest)).1 =
        answered strangerRequest (.notOwner .submission (.ofNat 3)) := by
  obtain ⟨_, P, _, hreach, hsame, row, hrow, howner, _, hthere⟩ := reachable_without_code
  have hcaller : caller? strangerRequest = some (.ofNat 8) := by decide +kernel
  have hother : row.userId ≠ .ofNat 8 := by
    rw [howner]
    decide
  have htold := told_to_stranger strangerRequest_asks hcaller (hsame ▸ hrow) hother
  exact ⟨P, hreach, htold.2.1.mpr hthere⟩

end Http

end ContestPlatform
