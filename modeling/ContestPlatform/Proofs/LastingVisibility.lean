import ContestPlatform.Proofs.FrozenLedger

/-!
# Visibility in time

Who may see the problems of a contest may see them from then on: time does not take that away, and
the end of the contest does not either. Only who withdraws the registration, or replaces or removes
the contest, does. The statuses that are shown of a contest go on with time and never back. Both
hold for windows that end before they start as well.
-/

namespace ContestPlatform

open Interleaving Registration

/-! ## Looking at a contest -/

namespace Contest

open Service

theorem calls_checkVisibility (contestId userId : Uuid) :
    (Operation.checkVisibility contestId userId).run.run =
      .ask (.database (.findContest contestId)) fun
        | .error fault => failed fault
        | .ok none => failed (missing contestId)
        | .ok (some contest) => .ask (.database (.isRegistered contestId userId)) fun
          | .error fault => failed fault
          | .ok false => failed (.userNotRegistered contestId userId)
          | .ok true => .ask .now fun now =>
            if contest.runningAt now = .upcoming then failed (.contestNotRunning contestId)
            else succeeded contest.toJson := by
  simp only [Operation.run, run_map, checkVisibility, find, into_bind, into_found, into_ite,
    into_pure, into_throw, into_now]
  refine Program.ask_congr fun known => ?_
  rcases known with fault | (_ | contest)
  · rfl
  · rfl
  refine Program.ask_congr fun registered => ?_
  rcases registered with fault | (_ | _) <;> rfl

/-- A contest is shown as it is when the clock is looked at, after all that is read of it. -/
theorem calls_get (id : Uuid) (viewer : Option Uuid) :
    (Operation.getContest id viewer).run.run =
      .ask (.database (.findContest id)) fun
        | .error fault => failed fault
        | .ok none => failed (missing id)
        | .ok (some contest) =>
          match viewer with
          | none => .ask .now fun now => succeeded (contest.detailAt now none).toJson
          | some userId => .ask (.database (.isRegistered id userId)) fun
            | .error fault => failed fault
            | .ok registered => .ask .now fun now =>
              succeeded (contest.detailAt now (some registered)).toJson := by
  simp only [Operation.run, run_map, get, find, into_bind, into_found]
  refine Program.ask_congr fun known => ?_
  rcases known with fault | (_ | contest)
  · rfl
  · rfl
  cases viewer with
  | none => rfl
  | some userId =>
    refine Program.ask_congr fun registered => ?_
    rcases registered with fault | registered <;> rfl

end Contest

/-! ## Statuses in time -/

/-- How far registration has got. -/
def RegistrationStatus.rank : RegistrationStatus → Nat
  | .notStarted => 0
  | .open => 1
  | .closed => 2

/-- How far a contest has got. -/
def RunningStatus.rank : RunningStatus → Nat
  | .upcoming => 0
  | .running => 1
  | .ended => 2

namespace Contest

variable {c : Contest} {a b : Instant}

/-- Registration goes on with time, even if it is to end before it starts. -/
theorem registrationAt_mono (h : a ≤ b) :
    (c.registrationAt a).rank ≤ (c.registrationAt b).rank := by
  have hstarted : ¬ a < c.registrationStart → ¬ b < c.registrationStart :=
    fun ha hb => ha (Instant.lt_of_le_of_lt h hb)
  have hended : ¬ a ≤ c.registrationEnd → ¬ b ≤ c.registrationEnd :=
    fun ha hb => ha (Instant.le_trans h hb)
  unfold registrationAt
  -- The start is asked for first, so an end before it is never looked at too early.
  by_cases hstart : a < c.registrationStart
  · rw [if_pos hstart]
    exact Nat.zero_le _
  · rw [if_neg hstart, if_neg (hstarted hstart)]
    by_cases hend : a ≤ c.registrationEnd
    · rw [if_pos hend]
      split <;> decide
    · exact Nat.le_of_eq (by rw [if_neg hend, if_neg (hended hend)])

/-- A contest goes on with time, even if it is to end before it starts. -/
theorem runningAt_mono (h : a ≤ b) : (c.runningAt a).rank ≤ (c.runningAt b).rank := by
  have hstarted : ¬ a < c.start → ¬ b < c.start := fun ha hb => ha (Instant.lt_of_le_of_lt h hb)
  have hended : ¬ a < c.finish → ¬ b < c.finish := fun ha hb => ha (Instant.lt_of_le_of_lt h hb)
  unfold runningAt
  by_cases hstart : a < c.start
  · rw [if_pos hstart]
    exact Nat.zero_le _
  · rw [if_neg hstart, if_neg (hstarted hstart)]
    by_cases hend : a < c.finish
    · rw [if_pos hend]
      split <;> decide
    · exact Nat.le_of_eq (by rw [if_neg hend, if_neg (hended hend)])

theorem runningAt_eq_upcoming : c.runningAt a = .upcoming ↔ a < c.start := by
  unfold runningAt
  split
  case isTrue h => exact iff_of_true rfl h
  case isFalse h =>
    refine iff_of_false ?_ h
    split <;> exact nofun

end Contest

/-- What is shown of a contest tells its statuses. -/
theorem ContestDetail.statuses_of_toJson {d d' : ContestDetail} (h : d.toJson = d'.toJson) :
    d.registration = d'.registration ∧ d.running = d'.running := by
  simp only [toJson, Contest.members, ContestTerms.members, Json.object.injEq, List.cons_append,
    List.nil_append, List.cons.injEq, Prod.mk.injEq, Json.text.injEq, true_and] at h
  obtain ⟨-, -, -, -, -, -, -, -, hregistration, hrunning, -⟩ := h
  constructor
  · generalize d.registration = status, d'.registration = status' at hregistration
    cases status <;> cases status' <;> first | rfl | exact absurd hregistration (by decide)
  · generalize d.running = status, d'.running = status' at hrunning
    cases status <;> cases status' <;> first | rfl | exact absurd hrunning (by decide)

/-! ## Who may see the problems -/

/-- A user is registered for a contest that has started. -/
structure Stores.Visible {κ : Type} (contest : Contest) (contestId userId : Uuid)
    (s : Stores κ) : Prop where
  found : s.database.contest? contestId = some contest
  registered : s.database.isRegistered contestId userId = true
  started : contest.start ≤ s.now

/-- A user who is registered stays registered unless the registration is withdrawn, or removed with
    the contest. -/
theorem Database.Effect.isRegistered_of_isRegistered {db db' : Database} {call : Database.Call}
    {answer : call.Answer} {contestId userId : Uuid} (h : Effect db call answer db')
    (hregistered : db.isRegistered contestId userId = true)
    (hremove : call ≠ .removeRegistration contestId userId)
    (hcontest : call ≠ .removeContest contestId) :
    db'.isRegistered contestId userId = true := by
  -- To register once more changes nothing, but the call names the same row.
  by_cases hinsert : ∃ registeredAt, call = .insertRegistration contestId userId registeredAt
  · obtain ⟨registeredAt, rfl⟩ := hinsert
    rcases answer with fault | added
    · rw [h.of_error, hregistered]
    · exact h.isRegistered_insert.2
  · rw [h.isRegistered_other (fun at_ heq => hinsert ⟨at_, heq⟩) hremove hcontest, hregistered]

namespace Course

variable {κ : Type} [ContentStore κ] {mayFail : Prop} {s t : Stores κ} {contestId userId : Uuid}
  {contest : Contest} {result : Except Fault Json} {json : Json}

/-- A registration that could not be withdrawn is still there. -/
theorem database_of_unregister {fault : Fault}
    (h : Course mayFail (Operation.unregister contestId userId).run.run s (failed fault) t) :
    t.database = s.database := by
  rw [calls_unregister] at h
  obtain ⟨known, s₁, hfind, hrest⟩ := h.of_ask
  have hsame : s₁.database = s.database := hfind.effect.1.of_reads rfl
  rcases known with fault | (_ | contest)
  · rw [hrest.of_done.2, hsame]
  · rw [hrest.of_done.2, hsame]
  obtain ⟨now, s₂, hnow, hrest⟩ := hrest.of_ask
  have hsame₂ : s₂.database = s.database := hnow.database_of_now.trans hsame
  dsimp only at hrest
  split at hrest
  · obtain ⟨removed, _, hremove, hrest⟩ := hrest.of_ask
    rcases removed with fault | (_ | _)
    · rw [hrest.of_done.2, hremove.effect.1.of_error, hsame₂]
    · rw [hrest.of_done.2, hremove.effect.1.of_denies rfl, hsame₂]
    · exact nomatch hrest.of_done.1
  · rw [hrest.of_done.2, hsame₂]

/-- The contest stands. -/
theorem stands {operation : Operation} (h : Course mayFail operation.run.run s (.done result) t)
    (hfound : s.database.contest? contestId = some contest)
    (hstands : operation.ChangesContest contestId → ∃ fault, result = .error fault) :
    t.database.contest? contestId = some contest :=
  h.frame_standing (I := fun db => db.contest? contestId = some contest) hstands
    (fun _ _ _ _ _ hreplace hremove heffect hdb => heffect.contest?_eq hdb hreplace hremove) hfound

/-- Who may see the problems of a contest may see them later on. -/
theorem visible {operation : Operation} (h : Course mayFail operation.run.run s (.done result) t)
    (hs : s.Visible contest contestId userId)
    (hstands : operation.ChangesContest contestId → ∃ fault, result = .error fault)
    (hstays : operation = .unregister contestId userId → ∃ fault, result = .error fault) :
    t.Visible contest contestId userId := by
  have hstarted := Instant.le_trans hs.started h.now_le
  refine ⟨h.stands hs.found hstands, ?_, hstarted⟩
  by_cases hwithdraws : operation = .unregister contestId userId
  · obtain ⟨fault, rfl⟩ := hstays hwithdraws
    subst hwithdraws
    rw [h.database_of_unregister]
    exact hs.registered
  · refine h.frame_standing (I := fun db => db.isRegistered contestId userId = true) hstands ?_
      hs.registered
    intro db db' call answer hask _ hremove heffect hdb
    refine heffect.isRegistered_of_isRegistered hdb ?_ hremove
    rintro rfl
    exact hwithdraws hask.removeRegistration

/-- Who passes the check may see the problems. -/
theorem visible_of_check
    (h : Course mayFail (Operation.checkVisibility contestId userId).run.run s (succeeded json) t) :
    ∃ contest, t.Visible contest contestId userId ∧ json = contest.toJson := by
  rw [Contest.calls_checkVisibility] at h
  obtain ⟨known, s₁, hfind, hrest⟩ := h.of_ask
  rcases known with fault | (_ | contest)
  · exact nomatch hrest.of_done.1
  · exact nomatch hrest.of_done.1
  obtain ⟨registered, s₂, hregistered, hrest⟩ := hrest.of_ask
  rcases registered with fault | (_ | _)
  · exact nomatch hrest.of_done.1
  · exact nomatch hrest.of_done.1
  obtain ⟨now, s₃, hnow, hrest⟩ := hrest.of_ask
  split at hrest
  · exact nomatch hrest.of_done.1
  · next hrunning =>
    obtain ⟨hdone, rfl⟩ := hrest.of_done
    cases hdone
    -- All three calls read, so what they have found is still so.
    have hsame : t.database = s₁.database :=
      hnow.database_of_now.trans (hregistered.effect.1.of_reads rfl)
    have hsame' : s₁.database = s.database := hfind.effect.1.of_reads rfl
    have hfound : s.database.contest? contestId = some contest := Except.ok.inj hfind.database_ok.1
    have hyes : s₁.database.isRegistered contestId userId = true :=
      Except.ok.inj hregistered.database_ok.1
    refine ⟨contest, ⟨?_, ?_, ?_⟩, rfl⟩
    · rw [hsame, hsame', hfound]
    · rw [hsame, hyes]
    · rw [hnow.now_eq]
      exact Instant.not_lt.mp fun hlt => hrunning (Contest.runningAt_eq_upcoming.mpr hlt)

/-- Who may see the problems passes the check, unless the stores fail. -/
theorem check_of_visible
    (h : Course mayFail (Operation.checkVisibility contestId userId).run.run s (.done result) t)
    (hs : s.Visible contest contestId userId) : result = .ok contest.toJson ∨
      mayFail ∧ ∃ fault, result = .error fault ∧ fault.kind = .infrastructure := by
  rw [Contest.calls_checkVisibility] at h
  obtain ⟨known, s₁, hfind, hrest⟩ := h.of_ask
  have hsame : s₁.database = s.database := hfind.effect.1.of_reads rfl
  rcases hfind.database_eq with rfl | ⟨hmay, fault, rfl, hkind⟩
  · simp only [Database.answer, hs.found] at hrest
    obtain ⟨registered, s₂, hregistered, hrest⟩ := hrest.of_ask
    rcases hregistered.database_eq with rfl | ⟨hmay, fault, rfl, hkind⟩
    · simp only [Database.answer, hsame, hs.registered] at hrest
      obtain ⟨now, s₃, hnow, hrest⟩ := hrest.of_ask
      have hstarted : contest.start ≤ now := by
        rw [← hnow.now_eq]
        exact Instant.le_trans hs.started (Instant.le_trans hfind.now_le
          (Instant.le_trans hregistered.now_le hnow.now_le))
      have hrunning : contest.runningAt now ≠ .upcoming := fun heq =>
        Instant.not_lt.mpr hstarted (Contest.runningAt_eq_upcoming.mp heq)
      simp only [if_neg hrunning] at hrest
      cases hrest.of_done.1
      exact Or.inl rfl
    · cases hrest.of_done.1
      exact Or.inr ⟨hmay, fault, rfl, hkind⟩
  · cases hrest.of_done.1
    exact Or.inr ⟨hmay, fault, rfl, hkind⟩

/-- What is shown of a contest is the contest with its statuses at the present. -/
theorem shown_of_get {viewer : Option Uuid}
    (h : Course mayFail (Operation.getContest contestId viewer).run.run s (succeeded json) t) :
    ∃ contest registered, s.database.contest? contestId = some contest ∧
      t.database = s.database ∧ json = (contest.detailAt t.now registered).toJson := by
  rw [Contest.calls_get] at h
  obtain ⟨known, s₁, hfind, hrest⟩ := h.of_ask
  have hsame : s₁.database = s.database := hfind.effect.1.of_reads rfl
  rcases known with fault | (_ | contest)
  · exact nomatch hrest.of_done.1
  · exact nomatch hrest.of_done.1
  have hfound : s.database.contest? contestId = some contest := Except.ok.inj hfind.database_ok.1
  have hshown : ∀ {s₂ : Stores κ} registered, s₂.database = s.database →
      Course mayFail (.ask .now fun now => succeeded (contest.detailAt now registered).toJson) s₂
        (succeeded json) t →
      t.database = s.database ∧ json = (contest.detailAt t.now registered).toJson := by
    intro s₂ registered hsame₂ h
    obtain ⟨now, _, hnow, hrest⟩ := h.of_ask
    obtain ⟨hdone, rfl⟩ := hrest.of_done
    cases hdone
    rw [hnow.now_eq]
    exact ⟨hnow.database_of_now.trans hsame₂, rfl⟩
  cases viewer with
  | none => exact ⟨contest, none, hfound, hshown none hsame hrest⟩
  | some userId =>
    obtain ⟨registered, s₂, hregistered, hrest⟩ := hrest.of_ask
    rcases registered with fault | registered
    · exact nomatch hrest.of_done.1
    have hsame₂ : s₂.database = s.database := (hregistered.effect.1.of_reads rfl).trans hsame
    exact ⟨contest, some registered, hfound, hshown (some registered) hsame₂ hrest⟩

end Course

/-- The operation has shown a contest with these statuses. -/
def Performed.Shows {κ : Type} (d : Performed κ) (contestId : Uuid) (detail : ContestDetail) :
    Prop :=
  (∃ viewer, d.operation = .getContest contestId viewer) ∧ d.result = .ok detail.toJson

section Runs

variable {κ : Type} [ContentStore κ] {mayFail : Prop} {s : Stores κ} {trace : List (Performed κ)}
  {contestId userId : Uuid} {contest : Contest}

/-- From where a user may see the problems on, every check of it passes unless the stores fail. -/
theorem checks_of_visible (hrun : Succession mayFail s trace)
    (hvisible : s.Visible contest contestId userId)
    (hstands : ∀ d ∈ trace, d.operation.ChangesContest contestId → d.Failed)
    (hstays : ∀ d ∈ trace, d.operation = .unregister contestId userId → d.Failed) :
    ∀ d ∈ trace, d.operation = .checkVisibility contestId userId →
      d.result = .ok contest.toJson ∨ mayFail ∧ d.Broken := by
  intro d hd hcheck
  obtain ⟨-, before, hbefore, hcourse⟩ := hrun.frame (I := Stores.Visible contest contestId userId)
    (fun d hd => And.intro (hstands d hd) (hstays d hd))
    (fun s d hkeeps hs h => h.visible hs hkeeps.1 hkeeps.2) hvisible d hd
  rw [hcheck] at hcourse
  exact hcourse.check_of_visible hbefore

/-- From where a contest stands on, what is shown of it are its statuses at later instants. -/
theorem shown_of_standing (hrun : Succession mayFail s trace)
    (hfound : s.database.contest? contestId = some contest)
    (hstands : ∀ d ∈ trace, d.operation.ChangesContest contestId → d.Failed) :
    ∀ d ∈ trace, ∀ detail, d.Shows contestId detail → ∃ now, s.now ≤ now ∧
      detail.registration = contest.registrationAt now ∧
      detail.running = contest.runningAt now := by
  rintro d hd detail ⟨⟨viewer, hget⟩, hresult⟩
  obtain ⟨-, before, ⟨hbefore, hnow⟩, hcourse⟩ := hrun.frame
    (I := fun t => t.database.contest? contestId = some contest ∧ s.now ≤ t.now) hstands
    (fun _ d hstands hs h => ⟨h.stands hs.1 hstands, Instant.le_trans hs.2 h.now_le⟩)
    ⟨hfound, Instant.le_refl _⟩ d hd
  have hlater := Instant.le_trans hnow hcourse.now_le
  rw [hget, hresult] at hcourse
  obtain ⟨contest', registered, hfound', -, hjson⟩ := hcourse.shown_of_get
  obtain rfl := Option.some.inj (hbefore.symm.trans hfound')
  exact ⟨_, hlater, ContestDetail.statuses_of_toJson hjson⟩

/-- As long as a contest is neither replaced nor removed, a user who was let through to the problems
    is let through again, with the same contest, unless the registration was withdrawn or the stores
    fail; and the statuses that are shown of the contest only go on: registration from not started
    to open and closed, the contest from upcoming to running and ended. -/
theorem visibility_lasts (hrun : Succession mayFail s trace)
    (hstands : ∀ d ∈ trace, d.operation.ChangesContest contestId → d.Failed) :
    (∀ userId, (∀ d ∈ trace, d.operation = .unregister contestId userId → d.Failed) →
      trace.Pairwise fun d d' => d.operation = .checkVisibility contestId userId → ¬ d.Failed →
        d'.operation = .checkVisibility contestId userId →
          d'.result = d.result ∨ mayFail ∧ d'.Broken) ∧
    trace.Pairwise fun d d' => ∀ detail detail', d.Shows contestId detail →
      d'.Shows contestId detail' →
        detail.registration.rank ≤ detail'.registration.rank ∧
        detail.running.rank ≤ detail'.running.rank := by
  -- On the run: the first operation against each later one, and the later ones among themselves.
  induction hrun with
  | nil => exact ⟨fun _ _ => .nil, .nil⟩
  | @cons s t operation result later hcourse hlater ih =>
    have hstands' : ∀ d ∈ later, d.operation.ChangesContest contestId → d.Failed :=
      fun d hd => hstands d (List.mem_cons_of_mem _ hd)
    obtain ⟨hchecks, hshown⟩ := ih hstands'
    refine ⟨fun userId hstays => ?_, ?_⟩
    · have hstays' : ∀ d ∈ later, d.operation = .unregister contestId userId → d.Failed :=
        fun d hd => hstays d (List.mem_cons_of_mem _ hd)
      refine .cons (fun d hd hcheck hpassed hcheck' => ?_) (hchecks userId hstays')
      -- The first check passes, so the user may see the problems from there on.
      dsimp only at hcheck
      subst hcheck
      rcases result with fault | json
      · exact absurd ⟨fault, rfl⟩ hpassed
      obtain ⟨contest, hvisible, rfl⟩ := hcourse.visible_of_check
      exact checks_of_visible hlater hvisible hstands' hstays' d hd hcheck'
    · refine .cons (fun d hd detail detail' hfirst hsecond => ?_) hshown
      -- What is shown first is the contest as it stands from there on.
      obtain ⟨⟨viewer, hget⟩, hresult⟩ := hfirst
      dsimp only at hget hresult
      subst hget hresult
      obtain ⟨contest, registered, hfound, hsame, hjson⟩ := hcourse.shown_of_get
      obtain ⟨hregistration, hrunning⟩ := ContestDetail.statuses_of_toJson hjson
      obtain ⟨now, hnow, hregistration', hrunning'⟩ :=
        shown_of_standing hlater (hsame ▸ hfound) hstands' d hd detail' hsecond
      rw [hregistration, hrunning, hregistration', hrunning']
      exact ⟨Contest.registrationAt_mono hnow, Contest.runningAt_mono hnow⟩

end Runs

/-! ### A contest that is over -/

/-- What is shown of the contest to a viewer who is not known. -/
def earlyDetail (status : RunningStatus) : ContestDetail :=
  ⟨earlyRow.contest, .closed, status, none⟩

/-- The registered user is let through while the contest runs, and again when it is over. -/
theorem let_through_after_the_end :
    ∃ before during after again, Succession False afterRegistration [before, during, after, again] ∧
      before.Shows (.ofNat 2) (earlyDetail .upcoming) ∧
      during.operation = .checkVisibility (.ofNat 2) (.ofNat 7) ∧
      during.result = .ok earlyRow.contest.toJson ∧
      after.Shows (.ofNat 2) (earlyDetail .ended) ∧
      again.operation = .checkVisibility (.ofNat 2) (.ofNat 7) ∧ again.result = during.result ∧
      RunningStatus.upcoming.rank ≤ RunningStatus.ended.rank := by
  obtain ⟨before, during, after, again, hrun, hbefore, hduring, hpassed, hafter, hagain⟩ :
      ∃ before during after again : Performed Content.Memory,
        Succession False afterRegistration [before, during, after, again] ∧
        before.Shows (.ofNat 2) (earlyDetail .upcoming) ∧
        during.operation = .checkVisibility (.ofNat 2) (.ofNat 7) ∧
        during.result = .ok earlyRow.contest.toJson ∧
        after.Shows (.ofNat 2) (earlyDetail .ended) ∧
        again.operation = .checkVisibility (.ofNat 2) (.ofNat 7) :=
    ⟨⟨.getContest (.ofNat 2) none, _, _⟩, ⟨.checkVisibility (.ofNat 2) (.ofNat 7), _, _⟩,
      ⟨.getContest (.ofNat 2) none, _, _⟩, ⟨.checkVisibility (.ofNat 2) (.ofNat 7), _, _⟩,
      .cons (.of_run _ _) (.cons (.of_run_at ⟨25, 0⟩ (by decide))
        (.cons (.of_run_at ⟨35, 0⟩ (by decide)) (.cons (.of_run _ _) (.nil _)))),
      ⟨⟨none, rfl⟩, rfl⟩, rfl, rfl, ⟨⟨none, rfl⟩, rfl⟩, rfl⟩
  have hreads : ∀ d ∈ [before, during, after, again], ¬ d.operation.ChangesContest (.ofNat 2) ∧
      d.operation ≠ .unregister (.ofNat 2) (.ofNat 7) := by
    obtain ⟨⟨_, hbefore⟩, -⟩ := hbefore
    obtain ⟨⟨_, hafter⟩, -⟩ := hafter
    simp [hbefore, hduring, hafter, hagain, Operation.ChangesContest]
  have hstands : ∀ d ∈ [before, during, after, again],
      d.operation.ChangesContest (.ofNat 2) → d.Failed :=
    fun d hd hchange => absurd hchange (hreads d hd).1
  have hlasts := visibility_lasts hrun hstands
  have hchecks := hlasts.1 (.ofNat 7) fun d hd hwithdraws => absurd hwithdraws (hreads d hd).2
  refine ⟨before, during, after, again, hrun, hbefore, hduring, hpassed, hafter, hagain, ?_, ?_⟩
  · have hagain' := (List.rel_of_pairwise_cons hchecks.of_cons (by simp)) hduring
      (fun ⟨_, h⟩ => by rw [hpassed] at h; exact nomatch h) hagain
    exact hagain'.resolve_right fun h => h.1
  · exact ((List.rel_of_pairwise_cons hlasts.2 (by simp)) _ _ hbefore hafter).2

end ContestPlatform
