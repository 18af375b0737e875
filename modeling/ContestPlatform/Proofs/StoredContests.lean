import ContestPlatform.Proofs.IntListText
import ContestPlatform.Proofs.LastingVisibility
import ContestPlatform.Proofs.LedgerReaders
import ContestPlatform.Proofs.OpenRuns
import ContestPlatform.Proofs.OperationFaults
import ContestPlatform.Proofs.StoredWindows

/-!
# Contests are read back as they were written

A column keeps whole microseconds and knows no leap seconds; of instants that are so it loses
nothing, and of texts and of cohorts it loses nothing at all. So a contest with such instants is read
back as it was written, from when it was created or replaced until it is replaced again or deleted:
nothing else touches its row, whatever runs, fails, is cancelled or happens elsewhere.
-/

namespace ContestPlatform

open Interleaving

/-! ## What the columns keep -/

/-- Whole microseconds, outside of leap seconds. -/
structure Instant.IsWhole (t : Instant) : Prop where
  micros : t.nanos % 1000 = 0
  plain : t.isLeapSecond = false

/-- Of such an instant the column loses nothing. -/
theorem Instant.ofStamp_of_stamp? {t : Instant} {s : Stamp} (ht : t.IsWhole)
    (h : t.stamp? = some s) : ofStamp s = t := by
  obtain ⟨seconds, nanos⟩ := t
  obtain ⟨hmicros, hplain⟩ := ht
  have hnanos : ¬ nanosPerSecond ≤ nanos := of_decide_eq_false hplain
  simp only [nanosPerSecond] at hnanos hmicros
  have hcolumn : columnNanos ⟨seconds, nanos⟩ =
      ((seconds - columnEpoch) * 1000000 + (nanos / 1000 : Nat)) * 1000 := by
    simp only [columnNanos, nanosPerSecond]
    omega
  rw [stamp?_eq_some h, hcolumn, Int.mul_tdiv_cancel _ (by decide)]
  simp only [ofStamp, mk.injEq]
  omega

/-- All four instants are whole microseconds outside of leap seconds. -/
structure ContestTerms.IsWhole (t : ContestTerms) : Prop where
  registrationStart : t.registrationStart.IsWhole
  registrationEnd : t.registrationEnd.IsWhole
  start : t.start.IsWhole
  finish : t.finish.IsWhole

namespace Database

/-- What is read back of a contest is the contest. -/
theorem ContestRow.contest_of_ofContest? {c : Contest} {row : ContestRow}
    (h : ofContest? c = some row) (hwhole : c.IsWhole) : row.contest = c := by
  have hholds := holds_of_ofContest? h
  unfold contest
  rw [hholds.id, hholds.name, hholds.description, hholds.eligible, IntList.read_plain,
    Instant.ofStamp_of_stamp? hwhole.registrationStart hholds.registrationStart,
    Instant.ofStamp_of_stamp? hwhole.registrationEnd hholds.registrationEnd,
    Instant.ofStamp_of_stamp? hwhole.start hholds.start,
    Instant.ofStamp_of_stamp? hwhole.finish hholds.finish]

/-! ## The row of a contest -/

/-- The row is in the table, and there is no other one with its identifier. -/
structure Keeps (db : Database) (row : ContestRow) : Prop where
  mem : row ∈ db.contests
  only : ∀ r ∈ db.contests, r.id = row.id → r = row

end Database

namespace Contest

/-- A call wrote the contest. -/
inductive Written (c : Contest) : Exchange → Prop where
  | inserted : Written c ⟨.database (.insertContest c), Except.ok ()⟩
  | replaced : Written c ⟨.database (.replaceContest c), Except.ok true⟩

/-- A call replaced or removed the contest with an identifier. -/
inductive Overwritten (id : Uuid) : Exchange → Prop where
  | replaced {c : Contest} (hid : c.id = id) :
      Overwritten id ⟨.database (.replaceContest c), Except.ok true⟩
  | removed : Overwritten id ⟨.database (.removeContest id), Except.ok true⟩

end Contest

namespace Database

section Keeps

variable {db db' : Database} {row : ContestRow} {c : Contest} {call : Call} {answer : call.Answer}

theorem Keeps.contest? (h : db.Keeps row) : db.contest? row.id = some row.contest := by
  have hsome : (db.contests.find? (·.id == row.id)).isSome = true :=
    List.find?_isSome.mpr ⟨row, h.mem, beq_iff_eq.mpr rfl⟩
  obtain ⟨found, hfound⟩ := Option.isSome_iff_exists.mp hsome
  have hid : found.id = row.id := by simpa using List.find?_some hfound
  have hrow : found = row := h.only found (List.mem_of_find?_eq_some hfound) hid
  rw [Database.contest?, hfound, hrow]
  rfl

theorem Keeps.of_mem_page (h : db.Keeps row) {limit offset : Nat} {r : ContestRow}
    (hr : r ∈ page limit offset (db.contests.mergeSort startsLater)) (hid : r.id = row.id) :
    r = row :=
  h.only r ((List.mergeSort_perm _ _).mem_iff.mp (List.mem_of_mem_drop (List.mem_of_mem_take hr)))
    hid

/-- A contest that is written has its row then, whatever was there before. -/
theorem Keeps.of_written (h : Effect db call answer db')
    (hwritten : c.Written ⟨.database call, answer⟩) :
    ∃ row, ContestRow.ofContest? c = some row ∧ db'.Keeps row := by
  cases hwritten with
  | inserted =>
    cases h with
    | read hreads => exact nomatch hreads
    | @contestAdded _ row hrow hnew =>
      refine ⟨row, hrow, List.mem_append_right _ List.mem_cons_self, fun r hr hid => ?_⟩
      rcases List.mem_append.mp hr with hold | hlast
      · -- Nothing had the identifier before.
        rw [ContestRow.id_of_ofContest? hrow] at hid
        exact absurd (beq_iff_eq.mpr hid) (List.any_eq_false.mp hnew r hold)
      · exact List.mem_singleton.mp hlast
  | replaced =>
    cases h with
    | read hreads => exact nomatch hreads
    | @contestReplaced _ row hrow hfound =>
      obtain ⟨old, hold, hid⟩ := List.any_eq_true.mp hfound
      refine ⟨row, hrow, List.mem_map.mpr ⟨old, hold, if_pos (beq_iff_eq.mp hid)⟩, ?_⟩
      intro r hr hsame
      obtain ⟨before, -, rfl⟩ := List.mem_map.mp hr
      split at hsame
      case isTrue h => exact if_pos h
      case isFalse h => exact absurd (hsame.trans (ContestRow.id_of_ofContest? hrow)) h

/-- A row stays as it is unless its contest is replaced or removed. -/
theorem Keeps.effect (h : db.Keeps row) (heffect : Effect db call answer db')
    (hkept : ¬ Contest.Overwritten row.id ⟨.database call, answer⟩) : db'.Keeps row := by
  cases heffect with
  | @contestAdded c new hnew hfresh =>
    refine ⟨List.mem_append_left _ h.mem, fun r hr hid => ?_⟩
    rcases List.mem_append.mp hr with hold | hlast
    · exact h.only r hold hid
    · -- The identifier is taken, so it is not that of a new contest.
      rw [List.mem_singleton.mp hlast, ContestRow.id_of_ofContest? hnew] at hid
      exact absurd (beq_iff_eq.mpr hid.symm) (List.any_eq_false.mp hfresh row h.mem)
  | @contestReplaced c new hnew hfound =>
    have hother : row.id ≠ c.id := fun hsame => hkept (.replaced hsame.symm)
    refine ⟨List.mem_map.mpr ⟨row, h.mem, if_neg hother⟩, fun r hr hid => ?_⟩
    obtain ⟨before, hbefore, rfl⟩ := List.mem_map.mp hr
    split at hid
    case isTrue => exact absurd (hid.symm.trans (ContestRow.id_of_ofContest? hnew)) hother
    case isFalse hne => exact (if_neg hne).trans (h.only before hbefore hid)
  | @contestRemoved id hfound hempty =>
    have hother : row.id ≠ id := fun hsame => hkept (hsame ▸ .removed)
    refine ⟨List.mem_filter.mpr ⟨h.mem, bne_iff_ne.mpr hother⟩, fun r hr hid => ?_⟩
    exact h.only r (List.mem_filter.mp hr).1 hid
  | _ => exact ⟨h.mem, h.only⟩

theorem Keeps.elsewhere (h : db.Keeps row) (helsewhere : db.Elsewhere db') : db'.Keeps row := by
  have hsame : db'.contests = db.contests := by
    cases helsewhere with
    | outside houtside _ =>
      cases houtside with
      | added hadded => cases hadded <;> rfl
      | graded => rfl
      | result => rfl
    | userChanged => rfl
    | userRemoved => rfl
  exact ⟨hsame ▸ h.mem, hsame ▸ h.only⟩

end Keeps

/-- What is in a list is on one of its pages, if there are numbers enough for all of them. -/
theorem exists_page {α : Type} {a : α} {rows : List α} {limit : Nat} (ha : a ∈ rows)
    (hroom : rows.length ≤ UInt32.size * limit) :
    ∃ n : UInt32, a ∈ page limit (n.toNat * limit) rows := by
  -- All pages together are the whole list.
  have hpages := flatMap_page limit rows UInt32.size
  rw [List.take_of_length_le hroom] at hpages
  rw [← hpages, List.mem_flatMap] at ha
  obtain ⟨n, hn, hpage⟩ := ha
  have hnumber : (UInt32.ofNat n).toNat = n := UInt32.toNat_ofNat_of_lt' (List.mem_range.mp hn)
  exact ⟨.ofNat n, hnumber.symm ▸ hpage⟩

/-! ## What an update leaves alone -/

/-- Tables that differ in the rows of a contest at most. There are as many rows as before, with the
    identifiers that they had. -/
structure SameBut (id : Uuid) (db db' : Database) : Prop where
  ids : db'.contests.map ContestRow.id = db.contests.map ContestRow.id
  others : db'.contests.filter (·.id != id) = db.contests.filter (·.id != id)
  rest : db' = { db with contests := db'.contests }

theorem answer_replaceContest (db : Database) {c : Contest} {row : ContestRow}
    (hrow : ContestRow.ofContest? c = some row) :
    (db.answer (.replaceContest c)).1 = .ok (db.hasContest c.id) := by
  simp only [answer, replaceContest, hrow]
  rfl

theorem SameBut.refl (id : Uuid) (db : Database) : SameBut id db db := ⟨rfl, rfl, rfl⟩

theorem Effect.sameBut {db db' : Database} {c : Contest}
    {answer : Call.Answer (.replaceContest c)} (h : Effect db (.replaceContest c) answer db') :
    SameBut c.id db db' := by
  cases h with
  | read hreads => exact nomatch hreads
  | refused | noContestReplaced => exact .refl _ _
  | @contestReplaced _ row hrow hfound =>
    refine ⟨?_, ?_, rfl⟩
    · rw [List.map_map]
      exact List.map_congr_left fun r _ => ContestRow.id_replaced hrow r
    · have htest : (fun r : ContestRow => r.id != c.id) ∘ (fun r => if r.id = c.id then row else r) =
          fun r => r.id != c.id :=
        funext fun r => congrArg (· != c.id) (ContestRow.id_replaced hrow r)
      rw [List.filter_map, htest]
      refine (List.map_congr_left fun r hr => ?_).trans (List.map_id _)
      exact if_neg (bne_iff_ne.mp (List.mem_filter.mp hr).2)

end Database

/-! ## Contests that stand -/

/-- The last element is the one that is singled out, or comes behind it. -/
theorem append_cons_eq_concat {α : Type} {log before after : List α} {a b : α}
    (h : log ++ [b] = before ++ a :: after) :
    (log = before ∧ b = a ∧ after = []) ∨
      ∃ rest, after = rest ++ [b] ∧ log = before ++ a :: rest := by
  rcases List.eq_nil_or_concat after with rfl | ⟨rest, last, rfl⟩
  · obtain ⟨hlog, hlast⟩ := List.append_inj' h rfl
    exact Or.inl ⟨hlog, List.singleton_inj.mp hlast, rfl⟩
  · rw [List.concat_eq_append, ← List.cons_append, ← List.append_assoc] at h
    obtain ⟨hlog, hlast⟩ := List.append_inj' h rfl
    exact Or.inr ⟨rest, by rw [List.concat_eq_append, List.singleton_inj.mp hlast], hlog⟩

namespace Contest

/-- The contest was written, and was neither replaced nor removed since. -/
def Stands (c : Contest) (log : List Event) : Prop :=
  ∃ before e after, log = before ++ e :: after ∧ c.Written e.exchange ∧
    ∀ e' ∈ after, ¬ Overwritten c.id e'.exchange

section Log

variable {c : Contest} {log : List Event} {e : Event}

/-- A contest that stands was written just now, or stood before and was let alone. -/
theorem Stands.of_concat (h : c.Stands (log ++ [e])) :
    c.Written e.exchange ∨ (c.Stands log ∧ ¬ Overwritten c.id e.exchange) := by
  obtain ⟨before, e', after, hlog, hwritten, hkept⟩ := h
  rcases append_cons_eq_concat hlog with ⟨-, rfl, -⟩ | ⟨rest, rfl, rfl⟩
  · exact Or.inl hwritten
  · refine Or.inr ⟨⟨before, e', rest, rfl, hwritten, fun x hx => ?_⟩, ?_⟩
    · exact hkept x (List.mem_append_left _ hx)
    · exact hkept e (List.mem_append_right _ List.mem_cons_self)

end Log

/-! ## What is told of a contest -/

/-- What an answer tells of the contest is that it is as it was written, unless the call failed. -/
def AgreesWith (r : Regime) (c : Contest) : Exchange → Prop
  | ⟨.database (.findContest id), .ok found⟩ => id = c.id → found = some c
  | ⟨.database (.contestPage _ _), .ok page⟩ => ∀ c' ∈ page, c'.id = c.id → c' = c
  | ⟨.database (.findContest _), .error fault⟩ | ⟨.database (.contestPage _ _), .error fault⟩
  | ⟨.database (.isRegistered _ _), .error fault⟩ =>
    fault.kind = .infrastructure ∧ ∃ call, r.mayFail call
  | _ => True

section Reading

variable {κ : Type} [ContentStore κ] {r : Regime} {s : Shared κ} {stores : Stores κ}

theorem agreesWith_answered {call : Call} {answer : call.Answer} {row : Database.ContestRow}
    {c : Contest} (hans : Answered r s call answer stores)
    (hkeeps : s.stores.database.Keeps row) (hrow : row.contest = c) :
    c.AgreesWith r ⟨call, answer⟩ := by
  cases hans with
  | clock | fresh | content => trivial
  | database call =>
    cases call with
    | findContest id =>
      rintro rfl
      rw [← hrow]
      exact hkeeps.contest?
    | contestPage limit offset =>
      intro c' hc' hid
      obtain ⟨r, hr, rfl⟩ := List.mem_map.mp hc'
      rw [← hrow] at hid ⊢
      rw [hkeeps.of_mem_page hr hid]
    | _ => trivial
  | trouble call _ hfail hmay =>
    cases call with
    | now | freshId | content => trivial
    | database call =>
      obtain ⟨fault, rfl, hkind⟩ := hfail
      cases call with
      | findContest | contestPage | isRegistered => exact ⟨hkind, _, hmay⟩
      | _ => trivial

end Reading

/-! ## What operations give -/

section Leads

open Service

variable {r : Regime} {exchanges : List Exchange} {result : Except Fault Json} {c : Contest}

/-- Terms are accepted only after they were written. -/
theorem written_of_leads {operation : Operation} {terms : ContestTerms} {json : Json}
    (hterms : operation.terms? = some terms)
    (h : Leads operation.run.run exchanges (succeeded json)) :
    ∃ id, (∀ other, operation = .updateContest other terms → id = other) ∧
      json = (ofTerms id terms).toJson ∧ ∃ x ∈ exchanges, (ofTerms id terms).Written x := by
  cases operation with
  | createContest =>
    cases hterms
    rw [calls_create] at h
    cases hflaw : terms.windowFlaw? with
    | some flaw =>
      simp only [hflaw] at h
      exact nomatch h.of_done.2
    | none =>
      simp only [hflaw] at h
      obtain ⟨id, rest, rfl, hdraw⟩ := h.of_ask
      obtain ⟨inserted, rest, rfl, hinsert⟩ := hdraw.of_ask
      rcases inserted with fault | _
      · exact nomatch hinsert.of_done.2
      cases hinsert.of_done.2
      exact ⟨id, nofun, rfl, _, List.mem_cons_of_mem _ List.mem_cons_self, .inserted⟩
  | updateContest id =>
    cases hterms
    rw [calls_update] at h
    cases hflaw : terms.windowFlaw? with
    | some flaw =>
      simp only [hflaw] at h
      exact nomatch h.of_done.2
    | none =>
      simp only [hflaw] at h
      obtain ⟨replaced, rest, rfl, hreplace⟩ := h.of_ask
      rcases replaced with fault | (_ | _)
      · exact nomatch hreplace.of_done.2
      · exact nomatch hreplace.of_done.2
      cases hreplace.of_done.2
      refine ⟨id, fun other hother => ?_, rfl, _, List.mem_cons_self, .replaced⟩
      cases hother
      rfl
  | _ => exact nomatch hterms

/-- A contest that stands while it is asked for is shown as it was written. -/
theorem result_of_get {viewer : Option Uuid}
    (h : Leads (Operation.getContest c.id viewer).run.run exchanges (.done result))
    (hagree : ∀ x ∈ exchanges, c.AgreesWith r x) :
    (∃ now registered, result = .ok (c.detailAt now registered).toJson) ∨
      ∃ fault, result = .error fault ∧ fault.kind = .infrastructure ∧ ∃ call, r.mayFail call := by
  rw [calls_get] at h
  obtain ⟨known, rest, rfl, hfind⟩ := h.of_ask
  have hknown := hagree _ List.mem_cons_self
  rcases known with fault | found
  · exact Or.inr ⟨fault, Program.done.inj hfind.of_done.2, hknown⟩
  obtain rfl : found = some c := hknown rfl
  cases viewer with
  | none =>
    obtain ⟨now, rest, rfl, hnow⟩ := hfind.of_ask
    exact Or.inl ⟨now, none, Program.done.inj hnow.of_done.2⟩
  | some userId =>
    obtain ⟨registered, rest, rfl, hregistered⟩ := hfind.of_ask
    have hanswer := hagree _ (List.mem_cons_of_mem _ List.mem_cons_self)
    rcases registered with fault | registered
    · exact Or.inr ⟨fault, Program.done.inj hregistered.of_done.2, hanswer⟩
    obtain ⟨now, rest, rfl, hnow⟩ := hregistered.of_ask
    exact Or.inl ⟨now, some registered, Program.done.inj hnow.of_done.2⟩

theorem calls_list (n : UInt32) :
    (Operation.listContests n).run.run =
      .ask (.database (.contestPage pageSize (n.toNat * pageSize))) fun
        | .error fault => failed fault
        | .ok contests => (details contests).into fun shown =>
          succeeded (Operation.listToJson ContestDetail.toJson shown) := by
  simp only [Operation.run, run_map, list, into_bind]
  refine Program.ask_congr fun page => ?_
  rcases page with fault | contests <;> rfl

/-- What is shown of a page are its contests, each at some instant. -/
theorem details_of_leads {contests : List Contest}
    {next : List ContestDetail → StoreProgram (Except Fault Json)}
    (h : Leads ((details contests).into next) exchanges (.done result)) :
    ∃ shown rest, Leads (next shown) rest (.done result) ∧
      ∀ detail ∈ shown, ∃ contest ∈ contests, ∃ now, detail = contest.detailAt now none := by
  induction contests generalizing exchanges next with
  | nil => exact ⟨[], exchanges, h, fun _ hdetail => absurd hdetail List.not_mem_nil⟩
  | cons contest later ih =>
    simp only [details, into_bind, into_pure, into_now] at h
    obtain ⟨now, rest, rfl, hlater⟩ := h.of_ask
    obtain ⟨shown, rest, hnext, hshown⟩ := ih hlater
    refine ⟨_, rest, hnext, fun detail hdetail => ?_⟩
    rcases List.mem_cons.mp hdetail with rfl | hdetail
    · exact ⟨contest, List.mem_cons_self, now, rfl⟩
    · obtain ⟨contest, hcontest, hnow⟩ := hshown detail hdetail
      exact ⟨contest, List.mem_cons_of_mem _ hcontest, hnow⟩

/-- A contest that stands while a page is asked for is shown on it as it was written or not at
    all. -/
theorem result_of_list {n : UInt32}
    (h : Leads (Operation.listContests n).run.run exchanges (.done result))
    (hagree : ∀ x ∈ exchanges, c.AgreesWith r x) :
    (∃ shown, result = .ok (Operation.listToJson ContestDetail.toJson shown) ∧
      ∀ detail ∈ shown, detail.contest.id = c.id → ∃ now, detail = c.detailAt now none) ∨
      ∃ fault, result = .error fault ∧ fault.kind = .infrastructure ∧ ∃ call, r.mayFail call := by
  rw [calls_list] at h
  obtain ⟨page, rest, rfl, hpage⟩ := h.of_ask
  have hanswer := hagree _ List.mem_cons_self
  rcases page with fault | contests
  · exact Or.inr ⟨fault, Program.done.inj hpage.of_done.2, hanswer⟩
  obtain ⟨shown, rest, hend, hshown⟩ := details_of_leads hpage
  refine Or.inl ⟨shown, Program.done.inj hend.of_done.2, fun detail hdetail hid => ?_⟩
  obtain ⟨contest, hcontest, now, rfl⟩ := hshown detail hdetail
  exact ⟨now, by rw [hanswer contest hcontest hid]⟩

end Leads

section Alone

variable {κ : Type} [ContentStore κ] (s : Stores κ)

/-- What an update of a contest does on stores that nothing else uses. -/
structure Replaces (id : Uuid) (terms : ContestTerms) : Prop where
  /-- No row is made, and everything but the contest is as it was. -/
  frame : ∃ db, (s.perform (update id terms)).2 = { s with database := db } ∧
    s.database.SameBut id db
  /-- An update that fails changes nothing at all. -/
  failed : ∀ fault, (s.perform (update id terms)).1 = .error fault →
    (s.perform (update id terms)).2 = s
  invalid : ∀ flaw, terms.windowFlaw? = some flaw →
    (s.perform (update id terms)).1 = .error (.validation flaw.objection)
  absent : terms.windowFlaw? = none → terms.Storable → s.database.hasContest id = false →
    (s.perform (update id terms)).1 = .error (missing id)
  /-- The row that comes in the place of the old one is made of the new terms alone. -/
  present : terms.windowFlaw? = none → terms.Storable → s.database.hasContest id = true →
    ∃ t row, s.perform (update id terms) = (.ok (ofTerms id terms), t) ∧
      Database.ContestRow.ofContest? (ofTerms id terms) = some row ∧ t.database.Keeps row

/-- What an update gives after the call has told whether there was a row to replace. -/
def replacedBy (c : Contest) : Except Fault Bool → Except Fault Contest
  | .error fault => .error fault
  | .ok false => .error (missing c.id)
  | .ok true => .ok c

section Update

variable {s} {id : Uuid} {terms : ContestTerms}

theorem perform_update_of_flaw {flaw : WindowFlaw} (h : terms.windowFlaw? = some flaw) :
    s.perform (update id terms) = (.error (.validation flaw.objection), s) := by
  unfold update checkWindows
  rw [h]
  rfl

theorem perform_update_of_none (h : terms.windowFlaw? = none) :
    s.perform (update id terms) =
      (replacedBy (ofTerms id terms) (s.database.answer (.replaceContest (ofTerms id terms))).1,
        { s with database := (s.database.answer (.replaceContest (ofTerms id terms))).2 }) := by
  have hchecked : update id terms = Service.database (.replaceContest (ofTerms id terms)) >>=
      fun found => if found then pure (ofTerms id terms) else throw (missing id) := by
    unfold update checkWindows
    rw [h]
    rfl
  rw [hchecked, Stores.perform_bind, Stores.perform_database]
  rcases (s.database.answer (.replaceContest (ofTerms id terms))).1 with fault | (_ | _) <;> rfl

theorem update_frame : ∃ db, (s.perform (update id terms)).2 = { s with database := db } ∧
    s.database.SameBut id db := by
  cases hflaw : terms.windowFlaw? with
  | some flaw =>
    exact ⟨s.database, congrArg Prod.snd (perform_update_of_flaw hflaw), .refl _ _⟩
  | none =>
    exact ⟨_, congrArg Prod.snd (perform_update_of_none hflaw),
      (Database.effect_answer s.database (.replaceContest (ofTerms id terms))).sameBut⟩

theorem update_failed {fault : Fault} (h : (s.perform (update id terms)).1 = .error fault) :
    (s.perform (update id terms)).2 = s := by
  cases hflaw : terms.windowFlaw? with
  | some flaw => exact congrArg Prod.snd (perform_update_of_flaw hflaw)
  | none =>
    have heffect := Database.effect_answer s.database (.replaceContest (ofTerms id terms))
    rw [perform_update_of_none hflaw] at h ⊢
    -- Where the call fails or finds no row, it has changed nothing.
    rcases hanswer : (s.database.answer (.replaceContest (ofTerms id terms))).1 with
      fault' | (_ | _)
    · rw [hanswer] at heffect
      rw [heffect.of_error]
    · rw [hanswer] at heffect
      rw [heffect.of_denies rfl]
    · rw [hanswer] at h
      exact nomatch h

theorem update_absent (hflaw : terms.windowFlaw? = none) (hstorable : terms.Storable)
    (habsent : s.database.hasContest id = false) :
    (s.perform (update id terms)).1 = .error (missing id) := by
  obtain ⟨row, hrow⟩ := hstorable.exists_row id
  have hanswer : (s.database.answer (.replaceContest (ofTerms id terms))).1 = .ok false :=
    (Database.answer_replaceContest _ hrow).trans (congrArg Except.ok habsent)
  rw [perform_update_of_none hflaw, hanswer]
  rfl

theorem update_present (hflaw : terms.windowFlaw? = none) (hstorable : terms.Storable)
    (hfound : s.database.hasContest id = true) :
    ∃ t row, s.perform (update id terms) = (.ok (ofTerms id terms), t) ∧
      Database.ContestRow.ofContest? (ofTerms id terms) = some row ∧ t.database.Keeps row := by
  obtain ⟨row, hrow⟩ := hstorable.exists_row id
  have hanswer : (s.database.answer (.replaceContest (ofTerms id terms))).1 = .ok true :=
    (Database.answer_replaceContest _ hrow).trans (congrArg Except.ok hfound)
  have heffect := Database.effect_answer s.database (.replaceContest (ofTerms id terms))
  rw [hanswer] at heffect
  obtain ⟨row', hrow', hkeeps⟩ := Database.Keeps.of_written heffect .replaced
  have hperform : s.perform (update id terms) = (.ok (ofTerms id terms), { s with
      database := (s.database.answer (.replaceContest (ofTerms id terms))).2 }) := by
    rw [perform_update_of_none hflaw, hanswer]
    rfl
  exact ⟨_, row', hperform, hrow', hkeeps⟩

end Update

theorem replaces (id : Uuid) (terms : ContestTerms) : Replaces s id terms where
  frame := update_frame
  failed _ := update_failed
  invalid _ hflaw := congrArg Prod.fst (perform_update_of_flaw hflaw)
  absent := update_absent
  present := update_present

/-- A contest can be read at once, and is listed on its page. -/
structure IsShown (c : Contest) : Prop where
  get : ∀ viewer, s.perform (get c.id viewer) =
    (.ok (c.detailAt s.now (viewer.map (s.database.isRegistered c.id))), s)
  list : ∀ n, ∃ shown, s.perform (list n) = (.ok shown, s) ∧
    ∀ detail ∈ shown, detail.contest.id = c.id → detail = c.detailAt s.now none
  /-- There are pages enough for more than eighty thousand million contests. -/
  listed : s.database.contests.length ≤ UInt32.size * pageSize →
    ∃ n shown, s.perform (Contest.list n) = (.ok shown, s) ∧ c.detailAt s.now none ∈ shown

variable {s}

theorem isShown_of_keeps {row : Database.ContestRow} {c : Contest} (h : s.database.Keeps row)
    (hrow : row.contest = c) : IsShown s c := by
  subst hrow
  have hsorted := List.mergeSort_perm s.database.contests Database.startsLater
  refine ⟨perform_get s h.contest?, fun n => ⟨_, perform_list s n, fun detail hdetail hid => ?_⟩,
    fun hroom => ?_⟩
  · obtain ⟨r, hr, rfl⟩ := List.mem_map.mp hdetail
    rw [h.of_mem_page hr hid]
  · have hlength := hsorted.length_eq.trans_le hroom
    obtain ⟨n, hn⟩ := Database.exists_page (hsorted.mem_iff.mpr h.mem) hlength
    exact ⟨n, _, perform_list s n, List.mem_map.mpr ⟨row, hn, rfl⟩⟩

end Alone

/-! ## Any moment of a run -/

section Runs

variable {κ : Type} [ContentStore κ] {r : Regime} {stores : Stores κ} {P : Pool κ}

/-- Every contest that stands has its row, and whatever was answered of a contest while it stood
    agrees with it. -/
structure Upheld (r : Regime) (s : Shared κ) : Prop where
  kept : ∀ c : Contest, c.Stands s.log →
    ∃ row, Database.ContestRow.ofContest? c = some row ∧ s.stores.database.Keeps row
  told : ∀ before e after, s.log = before ++ e :: after →
    ∀ c : Contest, c.IsWhole → c.Stands before → c.AgreesWith r e.exchange

omit [ContentStore κ] in
theorem upheld_initial : Upheld r ⟨stores, []⟩ := by
  constructor
  · rintro c ⟨before, e, after, hlog, -⟩
    exact absurd hlog.symm (List.append_ne_nil_of_right_ne_nil _ (List.cons_ne_nil _ _))
  · intro before e after hlog
    exact absurd hlog.symm (List.append_ne_nil_of_right_ne_nil _ (List.cons_ne_nil _ _))

theorem Upheld.call {s : Shared κ} (h : Upheld r s) {i : Nat} {operation : Operation} {call : Call}
    {answer : call.Answer} {stores' : Stores κ} (hans : Answered r s call answer stores') :
    Upheld r (s.after ⟨i, operation, call, answer⟩ stores') := by
  constructor
  · intro c hstands
    cases call with
    | database call =>
      rcases hstands.of_concat with hwritten | ⟨hstood, hover⟩
      · exact Database.Keeps.of_written hans.effect.1 hwritten
      · obtain ⟨row, hrow, hkeeps⟩ := h.kept c hstood
        rw [← Database.ContestRow.id_of_ofContest? hrow] at hover
        exact ⟨row, hrow, hkeeps.effect hans.effect.1 hover⟩
    | now | freshId | content =>
      -- Neither the clock nor the content store writes rows.
      rcases hstands.of_concat with hwritten | ⟨hstood, -⟩
      · exact nomatch hwritten
      · obtain ⟨row, hrow, hkeeps⟩ := h.kept c hstood
        rw [Shared.after_stores, hans.database_of_other fun _ => nofun]
        exact ⟨row, hrow, hkeeps⟩
  · intro before e after hlog c hwhole hstands
    rcases append_cons_eq_concat hlog with ⟨rfl, rfl, -⟩ | ⟨rest, -, hold⟩
    · obtain ⟨row, hrow, hkeeps⟩ := h.kept c hstands
      exact agreesWith_answered hans hkeeps
        (Database.ContestRow.contest_of_ofContest? hrow hwhole)
    · exact h.told before e rest hold c hwhole hstands

theorem upheld_of_reachable (hreach : OpenReachable r Database.Elsewhere (Pool.initial stores) P) :
    Upheld r P.toShared := by
  refine hreach.invariant (I := Upheld r) upheld_initial ?_ ?_
  · intro s i operation call next answer stores' hs _ _ hans
    exact hs.call hans
  · intro s db hs helsewhere
    refine ⟨fun c hstands => ?_, hs.told⟩
    obtain ⟨row, hrow, hkeeps⟩ := hs.kept c hstands
    exact ⟨row, hrow, hkeeps.elsewhere helsewhere⟩

/-- Whatever runs at the same time, fails, is cancelled or happens elsewhere: what a contest was
    created with, or replaced by, is written with one call, and if the instants are whole
    microseconds outside of leap seconds, then from that call until the contest is replaced again or
    removed it is shown as it was given back when it was written, by itself and in the list of all
    contests; and an operation that runs in this time shows it so, unless the database fails. An
    update replaces every field of a contest that is there and leaves all else alone, and an update
    that fails changes nothing: it fails if the windows are out of order, and else, if the terms can
    be kept, exactly where there is no such contest. -/
theorem read_as_written
    (hreach : OpenReachable r Database.Elsewhere (Pool.initial stores) P) :
    (∀ i operation terms json, P.tasks[i]? = some ⟨operation, some (succeeded json)⟩ →
      operation.terms? = some terms →
      ∃ id, (∀ other, operation = .updateContest other terms → id = other) ∧
        json = (ofTerms id terms).toJson ∧
        (∃ e ∈ P.log, e.task = i ∧ (ofTerms id terms).Written e.exchange) ∧
        (terms.IsWhole → (ofTerms id terms).Stands P.log →
          IsShown P.stores (ofTerms id terms))) ∧
    (∀ c : Contest, c.IsWhole → ∀ i,
      (∀ before e after, P.log = before ++ e :: after → e.task = i → c.Stands before) →
      (∀ viewer result, P.tasks[i]? = some ⟨.getContest c.id viewer, some (.done result)⟩ →
        (∃ now registered, result = .ok (c.detailAt now registered).toJson) ∨
        ∃ fault, result = .error fault ∧ fault.kind = .infrastructure ∧ ∃ call, r.mayFail call) ∧
      ∀ n result, P.tasks[i]? = some ⟨.listContests n, some (.done result)⟩ →
        (∃ shown, result = .ok (Operation.listToJson ContestDetail.toJson shown) ∧
          ∀ detail ∈ shown, detail.contest.id = c.id → ∃ now, detail = c.detailAt now none) ∨
        ∃ fault, result = .error fault ∧ fault.kind = .infrastructure ∧ ∃ call, r.mayFail call) ∧
    ∀ (s : Stores κ) id terms, Replaces s id terms := by
  have hupheld := upheld_of_reachable hreach
  refine ⟨?_, ?_, replaces⟩
  · intro i operation terms json hi hterms
    obtain ⟨id, hid, hjson, x, hx, hwritten⟩ := written_of_leads hterms (hreach.traced.leads hi)
    obtain ⟨e, he, htask, rfl⟩ := mem_exchangesOf.mp hx
    refine ⟨id, hid, hjson, ⟨e, he, htask, hwritten⟩, fun hwhole hstands => ?_⟩
    obtain ⟨row, hrow, hkeeps⟩ := hupheld.kept _ hstands
    exact isShown_of_keeps hkeeps (Database.ContestRow.contest_of_ofContest? hrow hwhole)
  · intro c hwhole i hwindow
    have hagree : ∀ x ∈ exchangesOf P.log i, c.AgreesWith r x := by
      intro x hx
      obtain ⟨e, he, htask, rfl⟩ := mem_exchangesOf.mp hx
      obtain ⟨before, after, hlog⟩ := List.append_of_mem he
      exact hupheld.told before e after hlog c hwhole (hwindow before e after hlog htask)
    exact ⟨fun viewer result hi => result_of_get (hreach.traced.leads hi) hagree,
      fun n result hi => result_of_list (hreach.traced.leads hi) hagree⟩

end Runs

/-! ### A contest of an hour -/

/-- Stores with a contest of which nothing was said yet. -/
def plannedStores : Stores Content.Memory :=
  ⟨default, .initial,
    { Database.empty with contests := [{ (default : Database.ContestRow) with id := .ofNat 1 }] },
    .empty⟩

/-- The contest with its terms. -/
def hourContest : Contest :=
  .ofTerms (.ofNat 1) hourTerms

/-- The contest gets its terms and is asked for by somebody who was there before. -/
theorem hour_read_back : ∃ P : Pool Content.Memory,
    OpenReachable undisturbed Database.Elsewhere (Pool.initial plannedStores) P ∧
    IsShown P.stores hourContest ∧ ∃ now registered,
      P.tasks[1]? = some ⟨.getContest hourContest.id none,
        some (succeeded (hourContest.detailAt now registered).toJson)⟩ := by
  have hreach : ∃ P : Pool Content.Memory, Reachable undisturbed (Pool.initial plannedStores) P ∧
      P.tasks = [⟨.updateContest (.ofNat 1) hourTerms, some (succeeded hourContest.toJson)⟩,
        ⟨.getContest hourContest.id none,
          some (succeeded (hourContest.detailAt dawn none).toJson)⟩] ∧
      P.log = [⟨0, .updateContest (.ofNat 1) hourTerms, .database (.replaceContest hourContest),
          Except.ok true⟩,
        ⟨1, .getContest hourContest.id none, .database (.findContest hourContest.id),
          Except.ok (some hourContest)⟩,
        ⟨1, .getContest hourContest.id none, .now, dawn⟩] := by
    refine ⟨_, .tail (.tail (.tail (.tail (.tail .refl
      (.begin_ _ (.updateContest (.ofNat 1) hourTerms) trivial))
      (.begin_ _ (.getContest hourContest.id none) trivial))
      (.call (i := 0) _ rfl (.database _ ?_)))
      (.call (i := 1) _ rfl (.database _ ?_)))
      (.call (i := 1) _ rfl (.clock dawn)), rfl, rfl⟩
    all_goals
      rintro ⟨fault, h, -⟩
      exact nomatch h
  obtain ⟨P, hreach, htasks, hlog⟩ := hreach
  have hwhole : hourTerms.IsWhole := by
    constructor <;> constructor <;> rfl
  -- What comes behind the update only reads.
  have hreads : ∀ e ∈ P.log.tail, ¬ Overwritten hourContest.id e.exchange := by
    intro e he hover
    rw [hlog] at he
    simp only [List.tail_cons, List.mem_cons, List.not_mem_nil, or_false] at he
    rcases he with rfl | rfl <;> cases hover
  obtain ⟨hwritten, hread, -⟩ := read_as_written (.of_reachable hreach)
  refine ⟨P, .of_reachable hreach, ?_, ?_⟩
  · obtain ⟨id, hid, -, -, hshown⟩ := hwritten 0 _ hourTerms _ (by rw [htasks]; rfl) rfl
    obtain rfl := hid _ rfl
    rw [hlog, List.tail_cons] at hreads
    exact hshown hwhole ⟨[], _, _, hlog, .replaced, hreads⟩
  · have hwindow : ∀ before e after, P.log = before ++ e :: after → e.task = 1 →
        hourContest.Stands before := by
      intro before e after hsplit htask
      have hsplit' := hlog.symm.trans hsplit
      cases before with
      | nil =>
        rw [← (List.cons.inj hsplit').1] at htask
        exact nomatch htask
      | cons first rest =>
        have htail : P.log.tail = rest ++ e :: after := by rw [hsplit, List.cons_append, List.tail_cons]
        rw [← (List.cons.inj hsplit').1]
        exact ⟨[], _, rest, rfl, .replaced, fun e' he' =>
          hreads e' (htail ▸ List.mem_append_left _ he')⟩
    obtain ⟨json, htask⟩ : ∃ json, P.tasks[1]? =
        some ⟨.getContest hourContest.id none, some (succeeded json)⟩ := ⟨_, by rw [htasks]; rfl⟩
    rcases (hread hourContest hwhole 1 hwindow).1 none _ htask with
      ⟨now, registered, hresult⟩ | ⟨_, _, _, _, hmay⟩
    · obtain rfl := Except.ok.inj hresult
      exact ⟨now, registered, htask⟩
    · exact hmay.elim

/-- The terms of an hour with a name that no column can hold. -/
def nulTerms : ContestTerms :=
  { hourTerms with name := "Quiz\x00" }

/-- Terms that cannot be kept are not even looked for a contest with: an update of a contest that is
    not there fails for another reason. -/
theorem nul_update_of_missing :
    nulTerms.IsWhole ∧ nulTerms.windowFlaw? = none ∧
      blankStores.database.hasContest (.ofNat 1) = false ∧
      (blankStores.perform (update (.ofNat 1) nulTerms)).1 = .error (.database .unstorable) ∧
      (blankStores.perform (update (.ofNat 1) nulTerms)).1 ≠ .error (missing (.ofNat 1)) := by
  have hrefused : (blankStores.perform (update (.ofNat 1) nulTerms)).1 =
      .error (.database .unstorable) := rfl
  refine ⟨?_, by decide, rfl, hrefused, ?_⟩
  · constructor <;> constructor <;> rfl
  · rw [hrefused]
    exact fun h => nomatch h

end Contest

end ContestPlatform
