import ContestPlatform.Proofs.Footprints
import ContestPlatform.Proofs.Serving

/-!
# What callers who are no administrators can do

A caller who is no administrator is turned away at every path of the administrators, whatever else
the request contains, and a caller without an identity wherever an identity is needed. What requests
of others change is confined (`Confined`): one of their own registrations, or a new submission of
their own with its code. Everything that is there already stays as it is.
-/

namespace ContestPlatform

variable {κ : Type} [LawfulContentStore κ]

/-- What a user without further rights may have changed of tables and texts. -/
inductive Confined (userId : Uuid) (db : Database) (m : Content.Map) :
    Database → Content.Map → Prop where
  | nothing : Confined userId db m db m
  /-- A registration of the user for one contest. -/
  | registration (contestId : Uuid) (rows : List Database.RegistrationRow)
      (hothers : (rows.filter fun r => !(r.contestId == contestId && r.userId == userId)) =
        db.registrations.filter fun r => !(r.contestId == contestId && r.userId == userId)) :
      Confined userId db m { db with registrations := rows } m
  /-- A new submission of the user, with its code if it has any. -/
  | submission (row : Database.SubmissionRow) (m' : Content.Map) (huser : row.userId = userId)
      (hnew : db.hasSubmission row.id = false)
      (htexts : m' = m ∨ m (Submission.codeKey row.id) = none ∧
        ∃ body, m' = Function.update m (Submission.codeKey row.id) (some body)) :
      Confined userId db m { db with submissions := db.submissions ++ [row] } m'

/-! ## What services leave behind -/

section Leaves

variable {ε α β : Type}

/-- The user changes only what a user may change. -/
def LeavesConfined (κ : Type) [LawfulContentStore κ] (userId : Uuid)
    (x : ExceptT ε StoreProgram α) : Prop :=
  ∀ s : Stores κ, Confined userId s.database s.texts (s.run x.run).2.database
    (s.run x.run).2.texts

namespace LeavesConfined

variable {userId : Uuid} {x : ExceptT ε StoreProgram α} {f : α → ExceptT ε StoreProgram β}

theorem of_kept (h : ∀ s : Stores κ, Kept s (s.run x.run).2) : LeavesConfined κ userId x := by
  intro s
  rw [(h s).database, (h s).texts]
  exact .nothing

/-- What comes before a change reads only. -/
theorem after_reading (hx : Within (·.reads = true) x) (hf : ∀ a, LeavesConfined κ userId (f a)) :
    LeavesConfined κ userId (x >>= f) := by
  intro s
  have hkept : Kept s (s.run x.run).2 := hx.kept s
  rw [Stores.run_bind]
  generalize s.run x.run = first at hkept ⊢
  obtain ⟨result, t⟩ := first
  rw [← hkept.database, ← hkept.texts]
  cases result with
  | error e => exact .nothing
  | ok a => exact hf a t

/-- What comes after a change reads only. -/
theorem before_reading (hx : LeavesConfined κ userId x) (hf : ∀ a, Within (·.reads = true) (f a)) :
    LeavesConfined κ userId (x >>= f) := by
  intro s
  have hfirst := hx s
  rw [Stores.run_bind]
  generalize s.run x.run = first at hfirst ⊢
  obtain ⟨result, t⟩ := first
  cases result with
  | error e => exact hfirst
  | ok a =>
    have hkept : Kept t (t.run (f a).run).2 := (hf a).kept t
    dsimp only
    rw [hkept.database, hkept.texts]
    exact hfirst

theorem adapt {ε' : Type} {g : ε → ε'} (h : LeavesConfined κ userId x) :
    LeavesConfined κ userId (ExceptT.adapt g x) := by
  intro s
  have hrun : (s.run (ExceptT.adapt g x).run).2 = (s.run x.run).2 :=
    congrArg Prod.snd (Program.run_bind Stores.answer x.run _ s)
  rw [hrun]
  exact h s

end LeavesConfined

end Leaves

/-! ## Registrations -/

theorem Registration.confined_insert (contestId userId : Uuid) (registeredAt : Instant) :
    LeavesConfined κ userId
      (Service.database (.insertRegistration contestId userId registeredAt)) := by
  intro s
  have heffect := Database.effect_answer s.database
    (.insertRegistration contestId userId registeredAt)
  show Confined userId s.database s.texts
    (s.database.answer (.insertRegistration contestId userId registeredAt)).2 s.texts
  generalize (s.database.answer (.insertRegistration contestId userId registeredAt)).1 = answer,
    (s.database.answer (.insertRegistration contestId userId registeredAt)).2 = db at heffect ⊢
  cases heffect with
  | refused | registrationKnown => exact .nothing
  | read hreads => exact nomatch hreads
  | registrationAdded =>
    refine .registration contestId _ ?_
    -- The row that is added is one of the pair.
    simp [List.filter_append]

theorem Registration.confined_remove (contestId userId : Uuid) :
    LeavesConfined κ userId (Service.database (.removeRegistration contestId userId)) := by
  intro s
  have heffect := Database.effect_answer s.database (.removeRegistration contestId userId)
  show Confined userId s.database s.texts
    (s.database.answer (.removeRegistration contestId userId)).2 s.texts
  generalize (s.database.answer (.removeRegistration contestId userId)).1 = answer,
    (s.database.answer (.removeRegistration contestId userId)).2 = db at heffect ⊢
  cases heffect with
  | refused | noRegistrationRemoved => exact .nothing
  | read hreads => exact nomatch hreads
  | registrationRemoved =>
    refine .registration contestId _ ?_
    simp only [List.filter_filter, Bool.and_self]

theorem Registration.confined_register (contestId userId : Uuid) :
    LeavesConfined κ userId (register contestId userId) := by
  refine .after_reading (within_openContest (fun _ h => h) contestId) fun contest => ?_
  refine .after_reading (Within.database rfl) fun profile? => ?_
  refine .after_reading (Within.found _ _) fun profile => ?_
  have hend : LeavesConfined κ userId (do
      if ← Service.database (.insertRegistration contestId userId (← Service.now)) then return ()
      throw (.alreadyRegistered contestId userId) : Service Unit) := by
    refine .after_reading (Within.now rfl) fun now => ?_
    refine (confined_insert contestId userId now).before_reading fun added => ?_
    cases added with
    | false => exact .throw _
    | true => exact .pure _
  cases contest.isEligible profile.currentYear with
  | false => exact .of_kept (Within.kept (.throw _))
  | true => exact hend

theorem Registration.confined_unregister (contestId userId : Uuid) :
    LeavesConfined κ userId (unregister contestId userId) := by
  refine .after_reading (within_openContest (fun _ h => h) contestId) fun contest => ?_
  refine (confined_remove contestId userId).before_reading fun removed => ?_
  cases removed with
  | false => exact .throw _
  | true => exact .pure _

/-! ## Submissions -/

/-- The code of a submission, once its row is there. -/
def Submission.putCode (id : Uuid) (code : Option String) (submission : Submission) :
    Service Submission := do
  if let some body := code then
    Service.content (.put (codeKey id) body .createOnly)
  return submission

/-- Code is written under a key where nothing was kept, or not at all. -/
theorem Submission.run_putCode (id : Uuid) (code : Option String) (submission : Submission)
    (s : Stores κ) :
    (s.run (putCode id code submission).run).2.database = s.database ∧
      ((s.run (putCode id code submission).run).2.texts = s.texts ∨
        s.texts (codeKey id) = none ∧ ∃ body, (s.run (putCode id code submission).run).2.texts =
          Function.update s.texts (codeKey id) (some body)) := by
  cases code with
  | none => exact ⟨rfl, Or.inl rfl⟩
  | some body =>
    have hput := LawfulContentStore.texts_answer s.content (.put (codeKey id) body .createOnly)
    have hrun : (s.run (putCode id (some body) submission).run).2 =
        (s.answer (.content (.put (codeKey id) body .createOnly))).2 := by
      unfold putCode
      rw [Stores.run_bind]
      have hcontent := s.perform_content (.put (codeKey id) body .createOnly)
      rw [Stores.perform] at hcontent
      rw [hcontent]
      cases (ContentStore.answer s.content (.put (codeKey id) body .createOnly)).1 <;> rfl
    rw [hrun]
    refine ⟨rfl, ?_⟩
    rcases Content.Map.answer_put s.texts (codeKey id) body .createOnly with ⟨fault, heq⟩ | heq
    · exact Or.inl (hput.trans (congrArg Prod.snd heq))
    · have hnone := Content.Map.eq_none_of_answer_create_ok (congrArg Prod.fst heq)
      exact Or.inr ⟨hnone, body, hput.trans (congrArg Prod.snd heq)⟩

/-- The row is written before the code, which is written under a key of its own. -/
theorem Submission.confined_insert (id userId : Uuid) (now : Instant) (new : NewSubmission)
    (code : Option String) :
    LeavesConfined κ userId (do
      Service.database (.insertSubmission (ofNew id userId now new))
      putCode id code (ofNew id userId now new)) := by
  intro s
  have heffect := Database.effect_answer s.database (.insertSubmission (ofNew id userId now new))
  have hfirst : s.run (Service.database (.insertSubmission (ofNew id userId now new))).run =
      ((s.database.answer (.insertSubmission (ofNew id userId now new))).1,
        { s with database :=
          (s.database.answer (.insertSubmission (ofNew id userId now new))).2 }) := rfl
  rw [Stores.run_bind, hfirst]
  generalize (s.database.answer (.insertSubmission (ofNew id userId now new))).1 = answer,
    (s.database.answer (.insertSubmission (ofNew id userId now new))).2 = db at heffect ⊢
  rcases answer with fault | _
  · obtain rfl := heffect.of_error
    exact .nothing
  · obtain ⟨row, hrow, hnew, rfl⟩ := heffect.insertSubmission_ok
    obtain ⟨hid, huser, -⟩ := Database.SubmissionRow.of_ofSubmission? hrow
    have hkey : codeKey id = codeKey row.id := congrArg codeKey hid.symm
    obtain ⟨hdatabase, htexts⟩ := run_putCode id code (ofNew id userId now new) { s with
      database := { s.database with submissions := s.database.submissions ++ [row] } }
    dsimp only
    rw [hdatabase]
    rw [hkey] at htexts
    exact .submission row _ huser hnew htexts

theorem Submission.confined_create (userId : Uuid) (new : NewSubmission) :
    LeavesConfined κ userId (create userId new) := by
  refine .after_reading (within_requiredCode new) fun code => ?_
  refine .after_reading (Within.database rfl) fun problem? => ?_
  refine .after_reading (Within.found _ _) fun problem => ?_
  by_cases hkind : problem.kind ≠ new.kind
  · simp only [if_pos hkind]
    exact .of_kept (Within.kept (.throw _))
  · simp only [if_neg hkind]
    refine .after_reading (Within.freshId rfl) fun id => ?_
    refine .after_reading (Within.now rfl) fun now => ?_
    exact confined_insert id userId now new code

/-! ## Requests that reach an endpoint -/

namespace Http

/-- The path is that of the administrators or one below it. -/
def IsUnderAdmin (path : String) : Prop :=
  ∃ rest, Route.segments path = "api" :: "v1" :: "admin" :: rest

/-- The endpoints that need no identity. -/
def Endpoint.isPublic : Endpoint → Bool
  | .health | .listContests | .getContest _ => true
  | _ => false

/-! ### The paths of administrators -/

theorem Route.isAdmin_of_ofSegments? {rest : List String} {route : Route}
    (h : ofSegments? ("admin" :: rest) = some route) : route.isAdmin = true := by
  -- The segments of the other routes begin with another word.
  unfold ofSegments? at h
  split at h
  all_goals first
    | (cases h; rfl)
    | simp_all

theorem Route.isAdmin_of_mem_endpoints {route : Route} {m : Method} {e : Endpoint}
    (h : (m, e) ∈ route.endpoints) : e.isAdmin = route.isAdmin := by
  cases route <;> simp only [endpoints, List.mem_cons, List.not_mem_nil, or_false,
    Prod.mk.injEq] at h
  case submissions | adminContest | adminProblem =>
    rcases h with ⟨-, rfl⟩ | ⟨-, rfl⟩ <;> rfl
  all_goals
    obtain ⟨-, rfl⟩ := h
    rfl

/-- Only routes of administrators are below their path. -/
theorem Route.isAdmin_of_isUnderAdmin {path : String} {route : Route}
    (hroute : ofPath? path = some route) (hunder : IsUnderAdmin path) : route.isAdmin = true := by
  obtain ⟨rest, hsegments⟩ := hunder
  have hpath : ofPath? path =
      if ("admin" :: rest).contains "" then none else ofSegments? ("admin" :: rest) := by
    unfold ofPath?
    rw [hsegments]
    rfl
  rw [hpath] at hroute
  split_ifs at hroute
  exact isAdmin_of_ofSegments? hroute

theorem isAdmin_of_isUnderAdmin {r : Request} {e : Endpoint} (hmatch : Matches r e)
    (hunder : IsUnderAdmin r.address.path) : e.isAdmin = true := by
  obtain ⟨route, hroute, hendpoint⟩ := hmatch
  obtain ⟨m, -, hlookup⟩ := Option.bind_eq_some_iff.mp hendpoint
  obtain ⟨before, after, hsplit, -⟩ := List.lookup_eq_some_iff.mp hlookup
  have hmem : (m, e) ∈ route.endpoints := by
    rw [hsplit]
    exact List.mem_append_right _ List.mem_cons_self
  rw [Route.isAdmin_of_mem_endpoints hmem]
  exact Route.isAdmin_of_isUnderAdmin hroute hunder

/-! ### Arguments -/

section Arguments

variable {P : Call → Prop} {r : Request}

theorem within_caller : Within P (caller r) := by
  unfold caller
  cases caller? r <;> trivial

theorem within_identifier (segment : String) : Within P (identifier segment) := by
  unfold identifier
  cases (Text.Percent.decodeText? segment).bind Uuid.ofText? <;> trivial

theorem within_query {α : Type} (read : String → Option α) : Within P (query r read) := by
  unfold query
  cases read (r.address.query.getD "") <;> trivial

theorem within_body {α : Type} (form : Input.Form α) : Within P (body r form) := by
  unfold body
  cases (r.visibleHeader? "content-type").any MediaType.isJson with
  | false => trivial
  | true =>
    by_cases hlong : longestBody < r.body.utf8ByteSize
    · simp only [if_pos hlong]
      trivial
    · simp only [if_neg hlong]
      cases form.read.ofText r.body <;> trivial

theorem within_check {α : Type} (form : Input.Form α) (a : α) : Within P (check form a) := by
  unfold check
  cases form.check a <;> trivial

theorem within_admitOwner (userId owner id : Uuid) : Within P (admitOwner userId owner id) := by
  unfold admitOwner
  split <;> trivial

end Arguments

/-! ### What endpoints do -/

/-- The endpoints that change nothing. -/
def Endpoint.reads : Endpoint → Bool
  | .health | .listContests | .getContest _ | .listProblems _ | .getProblem .. | .listSubmissions
  | .getSubmission _ | .getSubmissionStatus _ => true
  | _ => false

theorem within_handle {r : Request} {e : Endpoint} (he : e.reads = true) :
    Within (·.reads = true) (handle r e) := by
  have hrespond : ∀ {α : Type} {operation : Service α} {respond : α → Response},
      Within (·.reads = true) operation →
        Within (·.reads = true) (do return respond (← run operation) : Handler Response) :=
    fun h => h.adapt.bind fun _ => .pure _
  cases e with
  | health => exact .pure _
  | listContests =>
    exact (within_query _).bind fun q => hrespond (Contest.within_list (fun _ h => h) _)
  | getContest id =>
    exact (within_identifier id).bind fun id => hrespond (Contest.within_get (fun _ h => h) id _)
  | listProblems id =>
    refine within_caller.bind fun userId => (within_identifier id).bind fun id => ?_
    refine (Contest.within_checkVisibility (fun _ h => h) id userId).adapt.bind fun _ => ?_
    exact hrespond (Problem.within_list (fun _ h => h) id)
  | getProblem id problemId =>
    refine within_caller.bind fun userId => (within_identifier id).bind fun id => ?_
    refine (within_identifier problemId).bind fun problemId => ?_
    refine (Contest.within_checkVisibility (fun _ h => h) id userId).adapt.bind fun _ => ?_
    exact hrespond (Problem.within_get (fun _ h => h) id problemId)
  | listSubmissions =>
    refine within_caller.bind fun userId => (within_query _).bind fun q => ?_
    exact hrespond (Submission.within_list (fun _ h => h) userId q.problemId _)
  | getSubmission id =>
    refine within_caller.bind fun userId => (within_identifier id).bind fun id => ?_
    refine (Submission.within_details (fun _ h => h) id).adapt.bind fun details => ?_
    exact (within_admitOwner _ _ _).bind fun _ => .pure _
  | getSubmissionStatus id =>
    refine within_caller.bind fun userId => (within_identifier id).bind fun id => ?_
    refine (Submission.within_status (fun _ h => h) id).adapt.bind fun status => ?_
    exact (within_admitOwner _ _ _).bind fun _ => .pure _
  | _ => exact nomatch he

/-- What a user does at an endpoint that is not for administrators is confined. -/
theorem confined_handle {r : Request} {userId : Uuid} (hcaller : caller? r = some userId)
    {e : Endpoint} (he : e.isAdmin = false) : LeavesConfined κ userId (handle r e) := by
  cases e with
  | register id =>
    show LeavesConfined κ userId (caller r >>= _)
    rw [caller_of_some hcaller, pure_bind]
    refine .after_reading (within_identifier id) fun id => ?_
    exact (Registration.confined_register id userId).adapt.before_reading fun _ => .pure _
  | unregister id =>
    show LeavesConfined κ userId (caller r >>= _)
    rw [caller_of_some hcaller, pure_bind]
    refine .after_reading (within_identifier id) fun id => ?_
    exact (Registration.confined_unregister id userId).adapt.before_reading fun _ => .pure _
  | createSubmission =>
    show LeavesConfined κ userId (caller r >>= _)
    rw [caller_of_some hcaller, pure_bind]
    refine .after_reading (within_body _) fun new => ?_
    refine .after_reading (within_check _ new) fun _ => ?_
    refine .after_reading
      (Contest.within_checkVisibility (fun _ h => h) new.contestId userId).adapt fun _ => ?_
    exact (Submission.confined_create userId new).adapt.before_reading fun _ => .pure _
  | health | listContests | getContest | listProblems | getProblem | listSubmissions
  | getSubmission | getSubmissionStatus => exact .of_kept (within_handle rfl).kept
  | _ => exact nomatch he

/-! ### Who is turned away -/

theorem guarded_of_no_caller {r : Request} (hcaller : caller? r = none) {e : Endpoint}
    (he : e.isPublic = false) : Veil.guarded r e = throw (.fault .unauthorized) := by
  have hnone := caller_of_none hcaller
  cases e with
  | health | listContests | getContest => exact nomatch he
  | register | unregister | listProblems | getProblem | createSubmission | listSubmissions
  | getSubmission | getSubmissionStatus =>
    show (caller r >>= _) = _
    rw [hnone]
    rfl
  | _ =>
    show ((caller r >>= _) >>= _) = _
    rw [hnone]
    rfl

theorem refusal?_of_not_admin {db : Database} {r : Request}
    (hcaller : ∀ userId, caller? r = some userId → userId ∉ db.admins) :
    refusal? db r = some (if (caller? r).isSome then .adminRequired else .unauthorized) := by
  unfold refusal?
  cases huser : caller? r with
  | none => rfl
  | some userId =>
    have hfalse : db.isAdmin userId = false := by
      rw [Database.isAdmin, List.contains_eq_mem, decide_eq_false (hcaller userId huser)]
    dsimp only
    rw [hfalse]
    rfl

theorem run_guarded_of_refusal {r : Request} {s : Stores κ} {fault : Fault}
    (hrefusal : refusal? s.database r = some fault) {e : Endpoint} (he : e.isAdmin = true) :
    s.run (Veil.guarded r e).run = (.error (.fault fault), s) := by
  unfold Veil.guarded
  rw [if_pos he, Stores.run_bind, run_admitAdmin, hrefusal]

/-! ### Whole requests -/

theorem run_serve_of_no_caller {r : Request} (hcaller : caller? r = none) {e : Endpoint}
    (h : Matches r e) (he : e.isPublic = false) (s : Stores κ) :
    s.run (serve r) = (answered r .unauthorized, s) := by
  refine run_serve_of_refused h ?_
  rw [guarded_of_no_caller hcaller he]
  rfl

/-- Without an identity nothing is changed: only endpoints that read go on without one. -/
theorem kept_of_no_caller {r : Request} (hcaller : caller? r = none) (s : Stores κ) :
    Kept s (s.run (serve r)).2 := by
  by_cases hmatch : ∃ e, Matches r e
  · obtain ⟨e, he⟩ := hmatch
    cases hpublic : e.isPublic with
    | false =>
      rw [run_serve_of_no_caller hcaller he hpublic]
      exact ⟨rfl, rfl⟩
    | true =>
      have hopen : e.isAdmin = false ∧ e.reads = true := by
        cases e with
        | health | listContests | getContest => exact ⟨rfl, rfl⟩
        | _ => exact nomatch hpublic
      rw [run_serve_of_matches he, guarded_of_open hopen.1]
      exact (within_handle hopen.2).kept s
  · rw [(run_serve_of_not_matches (fun e he => hmatch ⟨e, he⟩) s).1]
    exact ⟨rfl, rfl⟩

theorem confined_of_caller {r : Request} {userId : Uuid} (hcaller : caller? r = some userId)
    {s : Stores κ} (hnot : userId ∉ s.database.admins) :
    Confined userId s.database s.texts (s.run (serve r)).2.database (s.run (serve r)).2.texts := by
  by_cases hmatch : ∃ e, Matches r e
  · obtain ⟨e, he⟩ := hmatch
    cases hadmin : e.isAdmin with
    | true =>
      have hother : ∀ other, caller? r = some other → other ∉ s.database.admins := by
        intro other hsame
        rw [← Option.some.inj (hcaller.symm.trans hsame)]
        exact hnot
      have hrefusal := refusal?_of_not_admin hother
      rw [run_serve_of_refused he (run_guarded_of_refusal hrefusal hadmin)]
      exact .nothing
    | false =>
      rw [run_serve_of_matches he, guarded_of_open hadmin]
      exact confined_handle hcaller hadmin s
  · rw [(run_serve_of_not_matches (fun e he => hmatch ⟨e, he⟩) s).1]
    exact .nothing

/-- Below the path of administrators nobody else is told whether a method is allowed: they are
    turned away whatever they ask for. -/
theorem run_serve_of_notAllowed_of_isUnderAdmin {r : Request} {route : Route}
    (hnot : NotAllowed r route) (hunder : IsUnderAdmin r.address.path) {s : Stores κ}
    (hcaller : ∀ userId, caller? r = some userId → userId ∉ s.database.admins) :
    s.run (serve r) = (tellAllowed route
      (answered r (if (caller? r).isSome then .adminRequired else .unauthorized)), s) := by
  rw [run_serve_of_notAllowed hnot, Route.isAdmin_of_isUnderAdmin hnot.path hunder, if_pos rfl,
    refusal?_of_not_admin hcaller]
  rfl

/-- A caller who is no administrator gets nowhere below the path of administrators, a caller without
    an identity changes nothing and gets nowhere where an identity is needed, and what the requests
    of other users change is confined. -/
theorem authority_confined (s : Stores κ) (r : Request)
    (hcaller : ∀ userId, caller? r = some userId → userId ∉ s.database.admins) :
    (∀ e, Matches r e → IsUnderAdmin r.address.path → (s.run (serve r)).1 =
      answered r (if (caller? r).isSome then .adminRequired else .unauthorized)) ∧
    (caller? r = none → Kept s (s.run (serve r)).2 ∧
      ∀ e, Matches r e → e.isPublic = false → (s.run (serve r)).1 = answered r .unauthorized) ∧
    ∀ userId, caller? r = some userId → Confined userId s.database s.texts
      (s.run (serve r)).2.database (s.run (serve r)).2.texts := by
  refine ⟨fun e hmatch hunder => ?_,
    fun hnone => ⟨kept_of_no_caller hnone s, fun e hmatch he => ?_⟩,
    fun userId huser => confined_of_caller huser (hcaller userId huser)⟩
  · have hadmin := isAdmin_of_isUnderAdmin hmatch hunder
    have hrefusal := refusal?_of_not_admin hcaller
    rw [run_serve_of_refused hmatch (run_guarded_of_refusal hrefusal hadmin)]
  · rw [run_serve_of_no_caller hnone hmatch he]

/-! ### A user among administrators -/

/-- Stores with an administrator, a user, and a contest that is open for registration. -/
def guardedStores : Stores Content.Memory where
  now := default
  ids := .initial
  database := { Database.empty with
    users := [{ (default : UserProfile) with id := .ofNat 7 }]
    admins := [.ofNat 1]
    contests := [{ (default : Database.ContestRow) with id := .ofNat 2, eligible := "0" }] }
  content := .empty

/-- A request of the user without a body. -/
def userRequest (method path : String) : Request where
  method := method
  address := ⟨path, none⟩
  headers := [("x-user-id", (Uuid.ofNat 7).text)]
  body := ""

/-- The user is turned away from a deletion although the path names no contest, and may register. -/
theorem user_turned_away_and_registered :
    let deletion := userRequest "DELETE" "/api/v1/admin/contests/none"
    let registration :=
      userRequest "POST" ("/api/v1/contests/" ++ (Uuid.ofNat 2).text ++ "/register")
    (guardedStores.run (serve deletion)).1 = answered deletion .adminRequired ∧
      (guardedStores.run (serve registration)).2.database.isRegistered (.ofNat 2) (.ofNat 7) =
        true ∧
      Confined (.ofNat 7) guardedStores.database guardedStores.texts
        (guardedStores.run (serve registration)).2.database
        (guardedStores.run (serve registration)).2.texts := by
  intro deletion registration
  have houtsider : ∀ method path userId, caller? (userRequest method path) = some userId →
      userId ∉ guardedStores.database.admins := by
    intro method path userId huser
    obtain rfl : Uuid.ofNat 7 = userId := Option.some.inj huser
    decide
  have hdeletion := authority_confined guardedStores deletion (houtsider _ _)
  have hregistration := authority_confined guardedStores registration (houtsider _ _)
  have hmatch : Matches deletion (.deleteContest "none") :=
    ⟨.adminContest "none", by decide +kernel, by decide +kernel⟩
  have hunder : IsUnderAdmin deletion.address.path := ⟨["contests", "none"], by decide +kernel⟩
  refine ⟨hdeletion.1 (.deleteContest "none") hmatch hunder, by decide +kernel, ?_⟩
  exact hregistration.2.2 (.ofNat 7) rfl

end Http

end ContestPlatform
