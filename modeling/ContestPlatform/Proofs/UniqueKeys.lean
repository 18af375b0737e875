import ContestPlatform.Proofs.RelationalConsistency
import Mathlib.Data.List.Nodup

/-!
# Unique keys

Rows are looked up by keys, and no two rows of a table share one: a row is only inserted if its key
is looked for in vain, and a row that is put in the place of another one has its key. Registrations
are kept for users who have a profile, and go with it. So it is at any moment, whatever runs at the
same time and fails and is cancelled, and although the accounts are kept elsewhere.
-/

namespace ContestPlatform

open Interleaving

/-! ## Rows with a key -/

/-- No two rows share their key. -/
def UniqueBy {α β : Type} (key : α → β) (rows : List α) : Prop :=
  (rows.map key).Nodup

namespace UniqueBy

variable {α β : Type} {key : α → β} {rows : List α}

theorem nil : UniqueBy key [] := List.nodup_nil

theorem eq (h : UniqueBy key rows) {a b : α} (ha : a ∈ rows) (hb : b ∈ rows)
    (hkey : key a = key b) : a = b :=
  List.inj_on_of_nodup_map h ha hb hkey

/-- Rows may be taken away. -/
theorem filter (h : UniqueBy key rows) (keep : α → Bool) : UniqueBy key (rows.filter keep) :=
  h.sublist (List.filter_sublist.map key)

/-- Rows may be replaced by rows with their keys. -/
theorem map (h : UniqueBy key rows) {f : α → α} (hf : ∀ row ∈ rows, key (f row) = key row) :
    UniqueBy key (rows.map f) := by
  unfold UniqueBy at h ⊢
  have hsame : (rows.map f).map key = rows.map key := by
    rw [List.map_map]
    exact List.map_congr_left hf
  rw [hsame]
  exact h

variable [BEq β] [LawfulBEq β]

/-- A row may be added if there is none with its key. -/
theorem append (h : UniqueBy key rows) {row : α}
    (hnew : rows.any (fun r => key r == key row) = false) : UniqueBy key (rows ++ [row]) := by
  unfold UniqueBy at h ⊢
  rw [List.map_append, List.map_singleton]
  apply List.Nodup.append h (List.nodup_singleton _)
  rw [List.disjoint_singleton]
  intro hmem
  obtain ⟨r, hr, hkey⟩ := List.mem_map.mp hmem
  exact List.any_eq_false.mp hnew r hr (beq_iff_eq.mpr hkey)

/-- A row is the only one with its key. -/
theorem filter_eq_singleton (h : UniqueBy key rows) {row : α} (hrow : row ∈ rows) :
    rows.filter (fun r => key r == key row) = [row] := by
  apply List.Perm.eq_singleton
  apply (List.perm_ext_iff_of_nodup (List.Nodup.of_map key (h.filter _))
    (List.nodup_singleton row)).mpr
  intro r
  rw [List.mem_filter, List.mem_singleton, beq_iff_eq]
  constructor
  · rintro ⟨hr, hkey⟩
    exact h.eq hr hrow hkey
  · rintro rfl
    exact ⟨hrow, rfl⟩

end UniqueBy

/-! ## Tables with unique keys -/

namespace Database

/-- A registration is looked up by its contest and its user. -/
def RegistrationRow.pair (r : RegistrationRow) : Uuid × Uuid :=
  (r.contestId, r.userId)

/-- Tables in which no two rows share their key, with registrations of users who exist. -/
structure Constrained (db : Database) : Prop where
  users : UniqueBy UserProfile.id db.users
  contests : UniqueBy ContestRow.id db.contests
  registrations : UniqueBy RegistrationRow.pair db.registrations
  problems : UniqueBy Problem.id db.problems
  submissions : UniqueBy SubmissionRow.id db.submissions
  registrants : ∀ g ∈ db.registrations, db.hasUser g.userId = true

theorem constrained_empty : empty.Constrained := by
  constructor
  case registrants => exact fun g hg => absurd hg List.not_mem_nil
  all_goals exact .nil

/-- Every call keeps the keys unique. -/
theorem Constrained.effect {db db' : Database} {call : Call} {answer : call.Answer}
    (h : db.Constrained) (heffect : Effect db call answer db') : db'.Constrained := by
  -- Who inserts a row has looked for its key; who replaces one has found it by its key.
  cases heffect with
  | contestAdded hrow hnew =>
    rw [← ContestRow.id_of_ofContest? hrow] at hnew
    exact { h with contests := h.contests.append hnew }
  | @contestReplaced c row hrow _ =>
    exact { h with contests := h.contests.map fun r _ => ContestRow.id_replaced hrow r }
  | contestRemoved _ _ =>
    exact { h with
      contests := h.contests.filter _
      registrations := h.registrations.filter _
      submissions := h.submissions.filter _
      registrants := fun g hg => h.registrants g (List.mem_filter.mp hg).1 }
  | registrationAdded _ hnew _ huser =>
    refine { h with registrations := h.registrations.append hnew, registrants := fun g hg => ?_ }
    rcases List.mem_append.mp hg with hold | hlast
    · exact h.registrants g hold
    · rw [List.mem_singleton.mp hlast]
      exact huser
  | registrationRemoved _ =>
    exact { h with
      registrations := h.registrations.filter _
      registrants := fun g hg => h.registrants g (List.mem_filter.mp hg).1 }
  | problemAdded hnew _ => exact { h with problems := h.problems.append hnew }
  | @problemReplaced p _ =>
    refine { h with problems := h.problems.map fun r _ => ?_ }
    split
    case isTrue hplace => exact (isProblemOf_eq_true.mp hplace).2.symm
    case isFalse => rfl
  | problemRemoved _ =>
    exact { h with problems := h.problems.filter _, submissions := h.submissions.filter _ }
  | submissionAdded hrow hnew =>
    rw [← (SubmissionRow.of_ofSubmission? hrow).1] at hnew
    exact { h with submissions := h.submissions.append hnew }
  | _ => exact { h with }

/-! ## What is done elsewhere -/

/-- The tables without a user and all that belongs to the user. -/
def removeUser (db : Database) (id : Uuid) : Database :=
  { db.dropSubmissions (·.userId == id) with
    users := db.users.filter (·.id != id)
    admins := db.admins.filter (· != id)
    registrations := db.registrations.filter (·.userId != id)
    rankings := db.rankings.filter (·.userId != id) }

/-- What is done to the tables elsewhere. Accounts are kept by another program, which adds, changes
    and removes them; the tables refuse a second user with the same identifier. -/
inductive Elsewhere (db : Database) : Database → Prop where
  | outside {db' : Database} (houtside : db.Outside db')
      (husers : UniqueBy UserProfile.id db'.users) : Elsewhere db db'
  | userChanged (profile : UserProfile) :
      Elsewhere db
        { db with users := db.users.map fun u => if u.id = profile.id then profile else u }
  | userRemoved (id : Uuid) : Elsewhere db (db.removeUser id)

theorem Elsewhere.problems_eq {db db' : Database} (h : db.Elsewhere db') :
    db'.problems = db.problems := by
  cases h with
  | outside houtside _ => exact houtside.problems_eq
  | userChanged => rfl
  | userRemoved => rfl

/-- Other users are still there when one is removed. -/
theorem hasUser_removeUser {db : Database} {id other : Uuid} (hother : (other != id) = true)
    (h : db.hasUser other = true) : (db.removeUser id).hasUser other = true := by
  refine (any_filter_of_imp fun u hu => ?_).trans h
  rwa [beq_iff_eq.mp hu]

/-- A user who is replaced keeps the identifier. -/
theorem hasUser_map (users : List UserProfile) (profile : UserProfile) (id : Uuid) :
    (users.map fun u => if u.id = profile.id then profile else u).any (·.id == id) =
      users.any (·.id == id) := by
  rw [List.any_map]
  refine congrArg (List.any users) (funext fun u => ?_)
  simp only [Function.comp_apply]
  split
  case isTrue hsame => rw [hsame]
  case isFalse => rfl

theorem Constrained.elsewhere {db db' : Database} (h : db.Constrained)
    (helsewhere : db.Elsewhere db') : db'.Constrained := by
  cases helsewhere with
  | outside houtside husers =>
    cases houtside with
    | added hadded =>
      cases hadded with
      | user profile =>
        refine { h with users := husers, registrants := fun g hg => ?_ }
        -- Whoever was known is known after another user was added.
        have hold := h.registrants g hg
        simp only [hasUser] at hold
        simp [hasUser, hold]
      | admin | ranking => exact { h with }
    | graded id g =>
      -- A grade is written into the row of its submission.
      refine { h with submissions := h.submissions.map fun row _ => ?_ }
      split
      case isTrue => rfl
      case isFalse => rfl
    | result => exact { h with }
  | userChanged profile =>
    refine { h with users := h.users.map fun u _ => ?_, registrants := fun g hg => ?_ }
    · split
      case isTrue hsame => exact hsame.symm
      case isFalse => rfl
    · exact (hasUser_map db.users profile g.userId).trans (h.registrants g hg)
  | userRemoved id =>
    refine { h with
      users := h.users.filter _
      registrations := h.registrations.filter _
      submissions := h.submissions.filter _
      registrants := fun g hg => ?_ }
    obtain ⟨hold, hother⟩ := List.mem_filter.mp hg
    exact hasUser_removeUser hother (h.registrants g hold)

/-- With a user go all references to the user. -/
theorem Consistent.removeUser {db : Database} (h : db.Consistent) (id : Uuid) :
    (db.removeUser id).Consistent := by
  have hdropped := h.dropSubmissions (·.userId == id)
  -- What is left refers to other users, who are still there.
  constructor
  case toOrderly => exact ⟨h.keyed, h.distinct⟩
  case contests => exact h.contests
  case submissions =>
    intro s hs
    obtain ⟨hproblem, huser⟩ := hdropped.submissions s hs
    have hother := (List.mem_filter.mp hs).2
    exact ⟨hproblem, hasUser_removeUser hother huser⟩
  case choices => exact hdropped.choices
  case registrations =>
    intro g hg
    obtain ⟨hold, hother⟩ := List.mem_filter.mp hg
    exact ⟨(h.registrations g hold).1, hasUser_removeUser hother (h.registrations g hold).2⟩
  case rankings =>
    intro e he
    obtain ⟨hold, hother⟩ := List.mem_filter.mp he
    exact ⟨(h.rankings e hold).1, hasUser_removeUser hother (h.rankings e hold).2⟩
  case results => exact hdropped.results

theorem Consistent.elsewhere {db db' : Database} (h : db.Consistent)
    (helsewhere : db.Elsewhere db') : db'.Consistent := by
  cases helsewhere with
  | outside houtside _ => exact h.outside houtside
  | userChanged profile =>
    apply h.grow
    · exact fun id hid => hid
    · exact fun id hid => (hasUser_map db.users profile id).trans hid
  | userRemoved id => exact h.removeUser id

end Database

/-! ## Any moment of a run -/

section Runs

variable {κ : Type} [ContentStore κ] {r : Regime} {stores : Stores κ} {P : Pool κ}

/-- Whatever operations run at the same time, fail and are cancelled, and whatever is done elsewhere:
    at any moment the keys are unique. -/
theorem Database.Constrained.lasts (hstart : stores.database.Constrained)
    (hreach : OpenReachable r Database.Elsewhere (Pool.initial stores) P) :
    P.stores.database.Constrained := by
  refine hreach.invariant (I := fun s => s.stores.database.Constrained) hstart ?_ ?_
  · intro s i operation call next answer stores' ih _ _ hans
    rw [Shared.after_stores]
    cases call with
    | database call => exact ih.effect hans.effect.1
    | now | freshId | content =>
      rw [hans.database_of_other (fun _ => nofun)]
      exact ih
  · exact fun s db ih helsewhere => ih.elsewhere helsewhere

/-- What the operations rely on at any moment: the references of the tables hold, and their keys are
    unique. -/
theorem Database.sound_of_reachable (hconsistent : stores.database.Consistent)
    (hconstrained : stores.database.Constrained)
    (hreach : OpenReachable r Database.Elsewhere (Pool.initial stores) P)
    (hnew : Problem.DrawsNew stores.database P.log) :
    P.stores.database.Consistent ∧ P.stores.database.Constrained :=
  ⟨hconsistent.lasts hreach hnew Elsewhere.problems_eq Consistent.elsewhere,
    hconstrained.lasts hreach⟩

end Runs

theorem constrained_codeStores : Submission.codeStores.database.Constrained where
  users := List.nodup_singleton _
  contests := List.nodup_singleton _
  registrations := .nil
  problems := List.nodup_singleton _
  submissions := .nil
  registrants _ hg := absurd hg List.not_mem_nil

end ContestPlatform
