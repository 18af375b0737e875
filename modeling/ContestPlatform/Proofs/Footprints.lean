import ContestPlatform.Proofs.ContentMap
import ContestPlatform.Proofs.DatabaseEffects
import ContestPlatform.Service.Operation
import ContestPlatform.Service.Stores

/-!
# Which calls an operation may make

A program can only do what it asks for. For every operation there is a list of calls that it may
make besides those that read (`Operation.mayWrite`), and `within_run` says that it makes no others,
whatever it is answered. So an operation that is only a reader changes nothing, and a row that has
been written tells which operations it can have come from.
-/

namespace ContestPlatform

/-- The calls that leave the tables and the texts as they are. -/
def Call.reads : Call → Bool
  | .now | .freshId => true
  | .database call => call.reads
  | .content (.get _) => true
  | .content (.put ..) | .content (.delete _) => false

/-- Every call of the program satisfies `P`, whatever the earlier ones were answered. -/
def Program.Asks {Q : Type} {A : Q → Type} {α : Type} (P : Q → Prop) : Program Q A α → Prop
  | .done _ => True
  | .ask q next => P q ∧ ∀ a, (next a).Asks P

namespace Program.Asks

variable {Q : Type} {A : Q → Type} {α β : Type} {P P' : Q → Prop} {p : Program Q A α}

theorem mono (himp : ∀ q, P q → P' q) (h : p.Asks P) : p.Asks P' := by
  induction p with
  | done a => trivial
  | ask q next ih => exact ⟨himp q h.1, fun a => ih a (h.2 a)⟩

theorem bind {f : α → Program Q A β} (h : p.Asks P) (hf : ∀ a, (f a).Asks P) :
    (p.bind f).Asks P := by
  induction p with
  | done a => exact hf a
  | ask q next ih => exact ⟨h.1, fun a => ih a (h.2 a)⟩

end Program.Asks

/-- Every call of the service satisfies `P`. -/
def Within {ε α : Type} (P : Call → Prop) (x : ExceptT ε StoreProgram α) : Prop :=
  x.run.Asks P

namespace Within

variable {ε ε' α β : Type} {P P' : Call → Prop} {x : ExceptT ε StoreProgram α}

theorem mono (himp : ∀ call, P call → P' call) (h : Within P x) : Within P' x :=
  Program.Asks.mono himp h

theorem pure (a : α) : Within P (pure a : ExceptT ε StoreProgram α) := trivial

theorem throw (e : ε) : Within P (throw e : ExceptT ε StoreProgram α) := trivial

theorem bind {f : α → ExceptT ε StoreProgram β} (h : Within P x) (hf : ∀ a, Within P (f a)) :
    Within P (x >>= f) := by
  refine Program.Asks.bind h fun result => ?_
  cases result with
  | error e => trivial
  | ok a => exact hf a

theorem map {f : α → β} (h : Within P x) : Within P (f <$> x) := by
  refine Program.Asks.bind h fun result => ?_
  cases result <;> trivial

theorem adapt {f : ε → ε'} (h : Within P x) : Within P (ExceptT.adapt f x) :=
  Program.Asks.bind h fun _ => trivial

/-! ## Services -/

theorem now (h : P .now) : Within P Service.now := ⟨h, fun _ => trivial⟩

theorem freshId (h : P .freshId) : Within P Service.freshId := ⟨h, fun _ => trivial⟩

theorem database {call : Database.Call} (h : P (.database call)) :
    Within P (Service.database call) :=
  ⟨h, fun _ => trivial⟩

theorem attempt {call : Content.Call} (h : P (.content call)) :
    Within P (Service.attempt call) :=
  ⟨h, fun _ => trivial⟩

theorem content {call : Content.Call} (h : P (.content call)) :
    Within P (Service.content call) := by
  refine (attempt h).bind fun answer => ?_
  cases answer <;> trivial

theorem found (fault : Fault) (a? : Option α) : Within P (Service.found fault a?) := by
  cases a? <;> trivial

end Within

/-! ## Reading changes nothing -/

section Kept

variable {κ : Type} [LawfulContentStore κ]

/-- The texts under the keys of the content store. -/
abbrev Stores.texts (s : Stores κ) : Content.Map :=
  LawfulContentStore.texts s.content

/-- The tables and the texts are the same. -/
structure Kept (s s' : Stores κ) : Prop where
  database : s'.database = s.database
  texts : s'.texts = s.texts

theorem Kept.trans {s s' s'' : Stores κ} (h : Kept s s') (h' : Kept s' s'') : Kept s s'' :=
  ⟨h'.database.trans h.database, h'.texts.trans h.texts⟩

theorem kept_answer {call : Call} (h : call.reads = true) (s : Stores κ) :
    Kept s (s.answer call).2 := by
  cases call with
  | now => exact ⟨rfl, rfl⟩
  | freshId => exact ⟨rfl, rfl⟩
  | database call => exact ⟨(Database.effect_answer s.database call).of_reads h, rfl⟩
  | content call =>
    cases call with
    | get key =>
      -- What is kept of the store is the texts, and to get one leaves them.
      have htexts := LawfulContentStore.texts_answer s.content (.get key)
      exact ⟨rfl, htexts.trans (Content.Map.answer_get_snd _ key)⟩
    | put => exact nomatch h
    | delete => exact nomatch h

/-- A program that only reads keeps everything. -/
theorem Within.kept {ε α : Type} {x : ExceptT ε StoreProgram α} (h : Within (·.reads = true) x)
    (s : Stores κ) : Kept s (s.run x.run).2 := by
  have hrun : ∀ {p : StoreProgram (Except ε α)}, p.Asks (·.reads = true) →
      ∀ s : Stores κ, Kept s (s.run p).2 := by
    intro p hp
    induction p with
    | done a => exact fun s => ⟨rfl, rfl⟩
    | ask call next ih =>
      intro s
      have hrest := ih _ (hp.2 (s.answer call).1) (s.answer call).2
      exact (kept_answer hp.1 s).trans hrest
  exact hrun h s

end Kept

/-! ## Operations that read -/

section Readers

variable {P : Call → Prop} (hreads : ∀ call : Call, call.reads = true → P call)

include hreads

theorem Contest.within_find (id : Uuid) : Within P (Contest.find id) :=
  (Within.database (hreads _ rfl)).bind fun _ => .found _ _

theorem Contest.within_get (id : Uuid) (viewer : Option Uuid) :
    Within P (Contest.get id viewer) := by
  refine (within_find hreads id).bind fun contest => ?_
  have hend : ∀ isRegistered : Option Bool,
      Within P (do return contest.detailAt (← Service.now) isRegistered : Service ContestDetail) :=
    fun _ => (Within.now (hreads _ rfl)).bind fun _ => .pure _
  -- Of a viewer one more call asks whether the viewer is registered.
  cases viewer with
  | none => exact hend none
  | some userId => exact (Within.database (hreads _ rfl)).map.bind hend

theorem Contest.within_details (contests : List Contest) : Within P (Contest.details contests) := by
  induction contests with
  | nil => exact .pure _
  | cons contest rest ih =>
    exact (Within.now (hreads _ rfl)).bind fun _ => ih.bind fun _ => .pure _

theorem Contest.within_list (page : UInt32) : Within P (Contest.list page) :=
  (Within.database (hreads _ rfl)).bind (within_details hreads)

theorem Contest.within_checkVisibility (contestId userId : Uuid) :
    Within P (Contest.checkVisibility contestId userId) := by
  refine (within_find hreads contestId).bind fun contest => ?_
  refine (Within.database (hreads _ rfl)).bind fun registered => ?_
  cases registered with
  | false => exact .throw _
  | true =>
    -- Only a registered user makes the platform look at the clock.
    refine (Within.now (hreads _ rfl)).bind fun now => ?_
    split
    · exact .throw _
    · exact .pure _

theorem Registration.within_openContest (contestId : Uuid) :
    Within P (Registration.openContest contestId) := by
  refine (Contest.within_find hreads contestId).bind fun contest => ?_
  refine (Within.now (hreads _ rfl)).bind fun now => ?_
  split
  · exact .pure _
  · exact .throw _

theorem Registration.within_list (contestId : Uuid) : Within P (Registration.list contestId) := by
  refine (Within.database (hreads _ rfl)).bind fun found => ?_
  cases found with
  | false => exact .throw _
  | true => exact Within.database (hreads _ rfl)

theorem Problem.within_find (contestId id : Uuid) : Within P (Problem.find contestId id) :=
  (Within.database (hreads _ rfl)).bind fun _ => .found _ _

theorem Problem.within_get (contestId id : Uuid) : Within P (Problem.get contestId id) := by
  refine (within_find hreads contestId id).bind fun problem => ?_
  refine (Within.content (hreads _ rfl)).bind fun stored => ?_
  cases ProblemDocument.ofText? stored with
  | none => exact .throw _
  | some document => exact .pure _

theorem Problem.within_list (contestId : Uuid) : Within P (Problem.list contestId) := by
  refine (Within.database (hreads _ rfl)).bind fun found => ?_
  cases found with
  | false => exact .throw _
  | true => exact Within.database (hreads _ rfl)

theorem Submission.within_status (id : Uuid) : Within P (Submission.status id) :=
  (Within.database (hreads _ rfl)).bind fun _ => .found _ _

theorem Submission.within_details (id : Uuid) : Within P (Submission.details id) := by
  refine (Within.database (hreads _ rfl)).bind fun found => ?_
  refine (Within.found _ _).bind fun submission => ?_
  have hend : ∀ code : Option String, Within P (do
      return ⟨submission, code, ← Service.database (.testResults id)⟩ :
        Service SubmissionDetails) :=
    fun _ => (Within.database (hreads _ rfl)).bind fun _ => .pure _
  -- Only code is read from the content store.
  cases submission.kind with
  | mcq => exact hend none
  | code => exact (Within.content (hreads _ rfl)).map.bind hend

theorem Submission.within_list (userId problemId : Uuid) (page : UInt32) :
    Within P (Submission.list userId problemId page) :=
  Within.database (hreads _ rfl)

omit hreads in
theorem Submission.within_requiredCode (new : NewSubmission) :
    Within P (Submission.requiredCode new) := by
  unfold Submission.requiredCode
  cases new.kind with
  | mcq => exact .pure _
  | code => exact (Within.found _ _).map

/-- Besides its reads, the creation of a submission inserts the row and writes the code. -/
theorem Submission.within_create (userId : Uuid) (new : NewSubmission)
    (hinsert : ∀ id now, P (.database (.insertSubmission (ofNew id userId now new))))
    (hput : ∀ id body, P (.content (.put (codeKey id) body .createOnly))) :
    Within P (Submission.create userId new) := by
  refine (Submission.within_requiredCode new).bind fun code => ?_
  refine (Within.database (hreads _ rfl)).bind fun problem? => ?_
  refine (Within.found _ _).bind fun problem => ?_
  by_cases hkind : problem.kind ≠ new.kind
  · simp only [if_pos hkind]
    exact .throw _
  · simp only [if_neg hkind]
    refine (Within.freshId (hreads _ rfl)).bind fun id => ?_
    refine (Within.now (hreads _ rfl)).bind fun now => ?_
    refine (Within.database (hinsert id now)).bind fun _ => ?_
    cases code with
    | none => exact .pure _
    | some body => exact (Within.content (hput id body)).bind fun _ => .pure _

end Readers

/-! ## Operations that write -/

/-- The calls that an operation may make besides those that read. -/
def Operation.mayWrite : Operation → Call → Prop
  | .createContest _, .database (.insertContest _) => True
  | .updateContest id _, .database (.replaceContest contest) => contest.id = id
  | .deleteContest id, .database (.removeContest contestId) => contestId = id
  | .register contestId userId, .database (.insertRegistration c u _) => c = contestId ∧ u = userId
  | .unregister contestId userId, .database (.removeRegistration c u) => c = contestId ∧ u = userId
  | .createProblem contestId _, .content (.put key _ .createOnly) =>
    ∃ id, key = Problem.keyOf contestId id
  | .createProblem contestId _, .database (.insertProblem p) => p.contestId = contestId
  | .updateProblem .., .content (.put _ _ .overwrite) => True
  | .updateProblem .., .database (.replaceProblem _) => True
  | .updateProblem .., .content (.delete _) => True
  | .deleteProblem contestId id, .database (.removeProblem c i) => c = contestId ∧ i = id
  | .deleteProblem .., .content (.delete _) => True
  | .createSubmission userId _, .database (.insertSubmission s) => s.userId = userId
  | .createSubmission .., .content (.put _ _ .createOnly) => True
  | .updateLeaderboard contestId userId _, .database (.patchRanking c u _) =>
    c = contestId ∧ u = userId
  | _, _ => False

namespace Operation

/-- The calls that an operation may make. -/
def MayAsk (operation : Operation) (call : Call) : Prop :=
  call.reads = true ∨ operation.mayWrite call

variable {operation : Operation}

private theorem reads_mayAsk {call : Call} (h : call.reads = true) : operation.MayAsk call :=
  Or.inl h

private theorem within_createContest (terms : ContestTerms) :
    Within (MayAsk (.createContest terms)) (Contest.create terms) := by
  unfold Contest.create Contest.checkWindows
  cases terms.windowFlaw? with
  | some flaw => exact .throw _
  | none =>
    refine (Within.freshId (reads_mayAsk rfl)).bind fun id => ?_
    exact (Within.database (Or.inr trivial)).bind fun _ => .pure _

private theorem within_updateContest (id : Uuid) (terms : ContestTerms) :
    Within (MayAsk (.updateContest id terms)) (Contest.update id terms) := by
  unfold Contest.update Contest.checkWindows
  cases terms.windowFlaw? with
  | some flaw => exact .throw _
  | none =>
    refine (Within.database (Or.inr rfl)).bind fun found => ?_
    cases found with
    | false => exact .throw _
    | true => exact .pure _

private theorem within_deleteContest (id : Uuid) :
    Within (MayAsk (.deleteContest id)) (Contest.delete id) := by
  refine (Within.database (Or.inr rfl)).bind fun found => ?_
  cases found with
  | false => exact .throw _
  | true => exact .pure _

private theorem within_register (contestId userId : Uuid) :
    Within (MayAsk (.register contestId userId)) (Registration.register contestId userId) := by
  refine (Registration.within_openContest (fun _ => reads_mayAsk) contestId).bind fun contest => ?_
  refine (Within.database (reads_mayAsk rfl)).bind fun profile? => ?_
  refine (Within.found _ _).bind fun profile => ?_
  have hend : Within (MayAsk (.register contestId userId)) (do
      if ← Service.database (.insertRegistration contestId userId (← Service.now)) then return ()
      throw (.alreadyRegistered contestId userId) : Service Unit) := by
    refine (Within.now (reads_mayAsk rfl)).bind fun now => ?_
    refine (Within.database (Or.inr ⟨rfl, rfl⟩)).bind fun added => ?_
    cases added with
    | false => exact .throw _
    | true => exact .pure _
  cases contest.isEligible profile.currentYear with
  | false => exact .throw _
  | true => exact hend

private theorem within_unregister (contestId userId : Uuid) :
    Within (MayAsk (.unregister contestId userId)) (Registration.unregister contestId userId) := by
  refine (Registration.within_openContest (fun _ => reads_mayAsk) contestId).bind fun contest => ?_
  refine (Within.database (Or.inr ⟨rfl, rfl⟩)).bind fun removed => ?_
  cases removed with
  | false => exact .throw _
  | true => exact .pure _

private theorem within_createProblem (contestId : Uuid) (new : NewProblem) :
    Within (MayAsk (.createProblem contestId new)) (Problem.create contestId new) := by
  refine (Within.database (reads_mayAsk rfl)).bind fun found => ?_
  cases found with
  | false => exact .throw _
  | true =>
    refine (Within.freshId (reads_mayAsk rfl)).bind fun id => ?_
    refine (Within.content (Or.inr ⟨id, rfl⟩)).bind fun _ => ?_
    exact (Within.database (Or.inr rfl)).bind fun _ => .pure _

private theorem within_updateProblem (contestId id : Uuid) (change : ProblemChange) :
    Within (MayAsk (.updateProblem contestId id change)) (Problem.update contestId id change) := by
  refine (Problem.within_find (fun _ => reads_mayAsk) contestId id).bind fun problem => ?_
  obtain ⟨name, description, score, kind, answer⟩ := change
  -- A document is removed only where one was written before.
  cases description with
  | none =>
    refine (Within.database (Or.inr trivial)).bind fun found => ?_
    cases found with
    | false => exact .throw _
    | true => exact .pure _
  | some description =>
    refine (Within.content (Or.inr trivial)).bind fun _ => ?_
    refine (Within.database (Or.inr trivial)).bind fun found => ?_
    cases found with
    | false =>
      refine Within.bind ?_ fun _ => .throw _
      exact (Within.attempt (Or.inr trivial)).bind fun _ => .pure ()
    | true => exact .pure _

private theorem within_deleteProblem (contestId id : Uuid) :
    Within (MayAsk (.deleteProblem contestId id)) (Problem.delete contestId id) := by
  refine (Problem.within_find (fun _ => reads_mayAsk) contestId id).bind fun problem => ?_
  refine (Within.database (Or.inr ⟨rfl, rfl⟩)).bind fun removed => ?_
  cases removed with
  | false => exact .throw _
  | true => exact (Within.attempt (Or.inr trivial)).bind fun _ => .pure ()

private theorem within_createSubmission (userId : Uuid) (new : NewSubmission) :
    Within (MayAsk (.createSubmission userId new)) (Submission.create userId new) :=
  Submission.within_create (fun _ => reads_mayAsk) userId new (fun _ _ => Or.inr rfl)
    fun _ _ => Or.inr trivial

private theorem within_updateLeaderboard (contestId userId : Uuid) (patch : LeaderboardPatch) :
    Within (MayAsk (.updateLeaderboard contestId userId patch))
      (Leaderboard.update contestId userId patch) := by
  unfold Leaderboard.update
  cases patch.isEmpty with
  | true => exact .throw _
  | false =>
    refine (Within.database (Or.inr ⟨rfl, rfl⟩)).bind fun found => ?_
    cases found with
    | false => exact .throw _
    | true => exact .pure _

/-- No operation makes other calls than those that it may make. -/
theorem within_run (operation : Operation) : Within operation.MayAsk operation.run := by
  have hreads : ∀ call : Call, call.reads = true → operation.MayAsk call := fun _ => reads_mayAsk
  cases operation with
  | createContest terms => exact (within_createContest terms).map
  | updateContest id terms => exact (within_updateContest id terms).map
  | deleteContest id => exact (within_deleteContest id).map
  | getContest id viewer => exact (Contest.within_get hreads id viewer).map
  | listContests page => exact (Contest.within_list hreads page).map
  | checkVisibility contestId userId =>
    exact (Contest.within_checkVisibility hreads contestId userId).map
  | register contestId userId => exact (within_register contestId userId).map
  | unregister contestId userId => exact (within_unregister contestId userId).map
  | isRegistered contestId userId => exact (Within.database (reads_mayAsk rfl)).map
  | listRegistrations contestId => exact (Registration.within_list hreads contestId).map
  | createProblem contestId new => exact (within_createProblem contestId new).map
  | updateProblem contestId id change => exact (within_updateProblem contestId id change).map
  | deleteProblem contestId id => exact (within_deleteProblem contestId id).map
  | getProblem contestId id => exact (Problem.within_get hreads contestId id).map
  | listProblems contestId => exact (Problem.within_list hreads contestId).map
  | createSubmission userId new => exact (within_createSubmission userId new).map
  | submissionStatus id => exact (Submission.within_status hreads id).map
  | submissionDetails id => exact (Submission.within_details hreads id).map
  | listSubmissions userId problemId page =>
    exact (Submission.within_list hreads userId problemId page).map
  | updateLeaderboard contestId userId patch =>
    exact (within_updateLeaderboard contestId userId patch).map
  | isAdmin userId => exact (Within.database (reads_mayAsk rfl)).map

/-! A call that writes tells which operation makes it. -/

namespace MayAsk

theorem replaceContest {contest : Contest}
    (h : operation.MayAsk (.database (.replaceContest contest))) :
    ∃ terms, operation = .updateContest contest.id terms := by
  rcases h with h | h
  · exact nomatch h
  cases operation with
  | updateContest id terms =>
    obtain rfl : contest.id = id := h
    exact ⟨terms, rfl⟩
  | _ => exact False.elim h

theorem removeContest {id : Uuid} (h : operation.MayAsk (.database (.removeContest id))) :
    operation = .deleteContest id := by
  rcases h with h | h
  · exact nomatch h
  cases operation with
  | deleteContest contestId =>
    obtain rfl : id = contestId := h
    rfl
  | _ => exact False.elim h

theorem insertRegistration {contestId userId : Uuid} {registeredAt : Instant}
    (h : operation.MayAsk (.database (.insertRegistration contestId userId registeredAt))) :
    operation = .register contestId userId := by
  rcases h with h | h
  · exact nomatch h
  cases operation with
  | register c u =>
    obtain ⟨rfl, rfl⟩ := h
    rfl
  | _ => exact False.elim h

theorem removeRegistration {contestId userId : Uuid}
    (h : operation.MayAsk (.database (.removeRegistration contestId userId))) :
    operation = .unregister contestId userId := by
  rcases h with h | h
  · exact nomatch h
  cases operation with
  | unregister c u =>
    obtain ⟨rfl, rfl⟩ := h
    rfl
  | _ => exact False.elim h

theorem insertProblem {p : Problem} (h : operation.MayAsk (.database (.insertProblem p))) :
    ∃ new, operation = .createProblem p.contestId new := by
  rcases h with h | h
  · exact nomatch h
  cases operation with
  | createProblem contestId new =>
    obtain rfl : p.contestId = contestId := h
    exact ⟨new, rfl⟩
  | _ => exact False.elim h

theorem replaceProblem {p : Problem} (h : operation.MayAsk (.database (.replaceProblem p))) :
    ∃ contestId id change, operation = .updateProblem contestId id change := by
  rcases h with h | h
  · exact nomatch h
  cases operation with
  | updateProblem contestId id change => exact ⟨contestId, id, change, rfl⟩
  | _ => exact False.elim h

theorem removeProblem {contestId id : Uuid}
    (h : operation.MayAsk (.database (.removeProblem contestId id))) :
    operation = .deleteProblem contestId id := by
  rcases h with h | h
  · exact nomatch h
  cases operation with
  | deleteProblem c i =>
    obtain ⟨rfl, rfl⟩ := h
    rfl
  | _ => exact False.elim h

theorem insertSubmission {s : Submission}
    (h : operation.MayAsk (.database (.insertSubmission s))) :
    ∃ new, operation = .createSubmission s.userId new := by
  rcases h with h | h
  · exact nomatch h
  cases operation with
  | createSubmission userId new =>
    obtain rfl : s.userId = userId := h
    exact ⟨new, rfl⟩
  | _ => exact False.elim h

end MayAsk

end Operation

end ContestPlatform
