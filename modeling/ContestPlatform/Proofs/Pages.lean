import ContestPlatform.Content.Memory
import ContestPlatform.Contest.Operations
import ContestPlatform.Proofs.Performing
import ContestPlatform.Submission.Operations

/-!
# Pages of a listing

A listing has the rows that match in the order of their time stamps, latest first, and among equal
stamps by their identifiers, and it is shown twenty rows at a time. The pages of a listing cut it
where one page ends and the next one begins: put one after another they are its beginning, so no row
is left out or shown twice, whatever the stamps are. A row that cannot be read stands in the way of
its own page, and of no other one.
-/

namespace ContestPlatform

namespace Database

section Order

variable {α β : Type}

/-! ## The order of a listing -/

/-- The first row comes before the second one: it has the later stamp, or the same stamp and an
    identifier that is not smaller. -/
def Newer (key : α → Stamp × Uuid) (a b : α) : Prop :=
  (key b).1 < (key a).1 ∨ ((key b).1 = (key a).1 ∧ (key b).2 ≤ (key a).2)

/-- The rows in the order in which they are listed. -/
structure Listing (key : α → Stamp × Uuid) (rows listing : List α) : Prop where
  /-- Every row is listed as often as it is there. -/
  perm : listing.Perm rows
  sorted : listing.Pairwise (Newer key)

theorem Newer.trans {key : α → Stamp × Uuid} {a b c : α} (h : Newer key a b)
    (h' : Newer key b c) : Newer key a c := by
  rcases h with hlt | ⟨heq, hid⟩
  · rcases h' with hlt' | ⟨heq', _⟩
    · exact .inl (Int.lt_trans hlt' hlt)
    · exact .inl (heq' ▸ hlt)
  · rcases h' with hlt' | ⟨heq', hid'⟩
    · exact .inl (heq ▸ hlt')
    · exact .inr ⟨heq'.trans heq, Nat.le_trans hid' hid⟩

theorem newer_total (key : α → Stamp × Uuid) (a b : α) : Newer key a b ∨ Newer key b a := by
  rcases Int.lt_trichotomy (key a).1 (key b).1 with hlt | heq | hlt
  · exact .inr (.inl hlt)
  · -- Among equal stamps the identifiers decide, which are compared as numbers.
    rcases Nat.le_total (key a).2.toNat (key b).2.toNat with hid | hid
    · exact .inr (.inr ⟨heq, hid⟩)
    · exact .inl (.inr ⟨heq.symm, hid⟩)
  · exact .inl (.inl hlt)

/-- To sort by a test of a total order is to put the rows in that order. -/
theorem pairwise_mergeSort_of_iff {le : α → α → Prop} {test : α → α → Bool}
    (htest : ∀ a b, test a b = true ↔ le a b) (htrans : ∀ a b c, le a b → le b c → le a c)
    (htotal : ∀ a b, le a b ∨ le b a) (rows : List α) : (rows.mergeSort test).Pairwise le := by
  have hsorted : (rows.mergeSort test).Pairwise fun a b => test a b = true := by
    apply List.pairwise_mergeSort
    · intro a b c hab hbc
      rw [htest] at hab hbc ⊢
      exact htrans a b c hab hbc
    · intro a b
      rw [Bool.or_eq_true, htest, htest]
      exact htotal a b
  exact hsorted.imp fun h => (htest _ _).mp h

/-- To sort by a test of this order is to list the rows. -/
theorem listing_mergeSort {key : α → Stamp × Uuid} {test : α → α → Bool}
    (htest : ∀ a b, test a b = true ↔ Newer key a b) (rows : List α) :
    Listing key rows (rows.mergeSort test) where
  perm := List.mergeSort_perm rows test
  sorted :=
    pairwise_mergeSort_of_iff htest (fun _ _ _ hab hbc => hab.trans hbc) (newer_total key) rows

/-- A submission is listed by the instant at which it was handed in. -/
def SubmissionRow.key (r : SubmissionRow) : Stamp × Uuid :=
  (r.createdAt, r.id)

/-- A contest is listed by its start. -/
def ContestRow.key (r : ContestRow) : Stamp × Uuid :=
  (r.start, r.id)

theorem submittedLater_eq_true (a b : SubmissionRow) :
    submittedLater a b = true ↔ Newer SubmissionRow.key a b :=
  decide_eq_true_iff

theorem startsLater_eq_true (a b : ContestRow) :
    startsLater a b = true ↔ Newer ContestRow.key a b :=
  decide_eq_true_iff

/-! ## Pages one after another -/

/-- The pages of a list are put together to its beginning. -/
theorem flatMap_page (limit : Nat) (rows : List α) (count : Nat) :
    (List.range count).flatMap (fun n => page limit (n * limit) rows) =
      rows.take (count * limit) := by
  induction count with
  | zero => rw [List.range_zero, List.flatMap_nil, Nat.zero_mul, List.take_zero]
  | succ count ih =>
    -- The last page begins where the pages before it end.
    rw [List.range_succ, List.flatMap_append, ih, List.flatMap_singleton, Nat.succ_mul,
      List.take_add]
    rfl

theorem map_page (f : α → β) (limit offset : Nat) (rows : List α) :
    (page limit offset rows).map f = page limit offset (rows.map f) := by
  rw [page, page, List.map_take, List.map_drop]

/-! ## Listings that are shown in pages -/

/-- The rows are listed in their order and answered page by page: a page with its rows as they are
    read, or with the fault of the first row on it that cannot be read. -/
structure InPages (size : Nat) (key : α → Stamp × Uuid) (read : α → Except Fault β)
    (rows listing : List α) (answer : UInt32 → Except Fault (List β)) : Prop where
  listed : Listing key rows listing
  /-- Page `n` has what is listed from place `size * n` up to the next page or to the end. -/
  read_page : ∀ n : UInt32, ∀ items : List β,
    (page size (n.toNat * size) listing).map read = items.map .ok → answer n = .ok items
  refused_page : ∀ n : UInt32, ∀ (items : List β) fault rest,
    (page size (n.toNat * size) listing).map read = items.map .ok ++ .error fault :: rest →
      answer n = .error fault
  /-- If all rows can be read and the first pages have room for them, then these pages, one after
      another, have every row once and in the order of the listing. -/
  whole : ∀ items : List β, listing.map read = items.map .ok →
    ∀ count ≤ UInt32.size, rows.length ≤ count * size →
      ∃ pages : Nat → List β, (∀ n < count, answer (.ofNat n) = .ok (pages n)) ∧
        (List.range count).flatMap pages = items

theorem mapM_of_map_ok {read : α → Except Fault β} {rows : List α} {items : List β}
    (h : rows.map read = items.map .ok) : rows.mapM read = .ok items := by
  induction rows generalizing items with
  | nil =>
    rw [List.map_nil, eq_comm, List.map_eq_nil_iff] at h
    rw [h, List.mapM_nil]
    rfl
  | cons row rest ih =>
    cases items with
    | nil => cases h
    | cons item items =>
      obtain ⟨hrow, hrest⟩ := List.cons.inj h
      rw [List.mapM_cons, hrow, ih hrest]
      rfl

theorem mapM_of_map_error {read : α → Except Fault β} {rows : List α} {items : List β}
    {fault : Fault} {after : List (Except Fault β)}
    (h : rows.map read = items.map .ok ++ .error fault :: after) :
    rows.mapM read = .error fault := by
  induction rows generalizing items with
  | nil => cases items <;> cases h
  | cons row rest ih =>
    cases items with
    | nil =>
      obtain ⟨hrow, -⟩ := List.cons.inj h
      rw [List.mapM_cons, hrow]
      rfl
    | cons item items =>
      obtain ⟨hrow, hrest⟩ := List.cons.inj h
      rw [List.mapM_cons, hrow, ih hrest]
      rfl

/-- To cut a listing into pages and read the rows of each one after another is to show it in
    pages. -/
theorem inPages_of_mapM {size : Nat} {key : α → Stamp × Uuid} {read : α → Except Fault β}
    {rows listing : List α} {answer : UInt32 → Except Fault (List β)}
    (hlisted : Listing key rows listing)
    (hanswer : ∀ n, answer n = (page size (n.toNat * size) listing).mapM read) :
    InPages size key read rows listing answer where
  listed := hlisted
  read_page n items h := (hanswer n).trans (mapM_of_map_ok h)
  refused_page n items fault rest h := (hanswer n).trans (mapM_of_map_error h)
  whole items hitems count hcount hroom := by
    refine ⟨fun n => page size (n * size) items, fun n hn => ?_, ?_⟩
    · have hnumber : (UInt32.ofNat n).toNat = n := UInt32.toNat_ofNat_of_lt' (by omega)
      rw [hanswer, hnumber]
      refine mapM_of_map_ok ?_
      rw [map_page, map_page, hitems]
    · -- The pages are the beginning of what is listed, and that is all of it.
      have hlength : items.length = rows.length := by
        rw [← hlisted.perm.length_eq, ← List.length_map read, hitems, List.length_map]
      rw [flatMap_page, List.take_of_length_le (hlength ▸ hroom)]

end Order

end Database

/-! ## The pages of submissions and of contests -/

variable {κ : Type} [ContentStore κ] (s : Stores κ)

/-- Every contest of a page has its statuses at the one present instant. -/
theorem Contest.perform_details (contests : List Contest) :
    s.perform (Contest.details contests) =
      (.ok (contests.map fun contest => contest.detailAt s.now none), s) := by
  induction contests with
  | nil => rfl
  | cons contest rest ih =>
    simp [Contest.details, ih]

/-- The rows of a user's submissions to a problem. -/
def Database.submissionsTo (db : Database) (userId problemId : Uuid) : List SubmissionRow :=
  db.submissions.filter fun r => r.userId == userId && r.problemId == problemId

theorem Submission.perform_list (userId problemId : Uuid) (n : UInt32) :
    s.perform (Submission.list userId problemId n) =
      ((Database.page 20 (n.toNat * 20) ((s.database.submissionsTo userId problemId).mergeSort
        Database.submittedLater)).mapM Database.readSubmission, s) := rfl

theorem Contest.perform_list (n : UInt32) :
    s.perform (Contest.list n) =
      (.ok ((Database.page 20 (n.toNat * 20)
        (s.database.contests.mergeSort Database.startsLater)).map fun row =>
          row.contest.detailAt s.now none), s) := by
  rw [Contest.list, Stores.perform_bind, Stores.perform_database]
  refine (Contest.perform_details s _).trans ?_
  rw [Database.contestPage, List.map_map]
  rfl

/-- The submissions of a user to a problem, and all contests with their present statuses, are shown
    in pages of twenty, in the order of their time stamps and identifiers, latest first; no page
    begins beyond the greatest place that the database can count to, and nothing changes. -/
theorem listings_in_pages :
    (∀ userId problemId : Uuid,
      (∃ listing, Database.InPages 20 Database.SubmissionRow.key Database.readSubmission
        (s.database.submissionsTo userId problemId) listing
        fun n => (s.perform (Submission.list userId problemId n)).1) ∧
      ∀ n, (s.perform (Submission.list userId problemId n)).2 = s) ∧
    (∃ listing, Database.InPages 20 Database.ContestRow.key
      (fun row => .ok (row.contest.detailAt s.now none)) s.database.contests listing
      fun n => (s.perform (Contest.list n)).1) ∧
    (∀ n, (s.perform (Contest.list n)).2 = s) ∧
    ∀ n : UInt32, ((n.toNat * Submission.pageSize : Nat) : Int) ≤ Int64.maxValue.toInt ∧
      ((n.toNat * Contest.pageSize : Nat) : Int) ≤ Int64.maxValue.toInt := by
  refine ⟨fun userId problemId => ⟨?_, fun n => ?_⟩, ?_, fun n => ?_, fun n => ?_⟩
  · have hlisted := Database.listing_mergeSort Database.submittedLater_eq_true
      (s.database.submissionsTo userId problemId)
    refine ⟨_, Database.inPages_of_mapM hlisted fun n => ?_⟩
    rw [Submission.perform_list]
  · rw [Submission.perform_list]
  · have hlisted := Database.listing_mergeSort Database.startsLater_eq_true s.database.contests
    refine ⟨_, Database.inPages_of_mapM hlisted fun n => ?_⟩
    -- Every row of a contest is read as a contest.
    rw [Contest.perform_list, Database.mapM_of_map_ok]
    rw [List.map_map]
    rfl
  · rw [Contest.perform_list]
  · have hlast : n.toNat < UInt32.size := n.toNat_lt_size
    have hsize : UInt32.size = 4294967296 := rfl
    have hmax : Int64.maxValue.toInt = 9223372036854775807 := rfl
    rw [Submission.pageSize, Contest.pageSize, hmax]
    omega

/-! ## A state that nobody knows -/

/-- A row of the submissions of user 7 to problem 2. -/
def attempt (n : Nat) (status : String) : Database.SubmissionRow :=
  { (default : Database.SubmissionRow) with
    id := .ofNat n, userId := .ofNat 7, problemId := .ofNat 2, choices := IntList.braced []
    status, createdAt := 0 }

/-- Two submissions at one instant, of which the grader has given the second one a state of its
    own. -/
def regradedStores : Stores Content.Memory :=
  ⟨default, .initial,
    { Database.empty with submissions := [attempt 5 "pending", attempt 4 "regraded"] }, .empty⟩

/-- The page of the two shows neither of them: the one that cannot be read stands in the way. -/
theorem regraded_page_refused :
    (regradedStores.database.submissionsTo (.ofNat 7) (.ofNat 2)).length = 2 ∧
      (regradedStores.perform (Submission.list (.ofNat 7) (.ofNat 2) 0)).1 =
        .error (.internal "unknown submission status: regraded") := by
  have hrows : regradedStores.database.submissionsTo (.ofNat 7) (.ofNat 2) =
      [attempt 5 "pending", attempt 4 "regraded"] := by decide +kernel
  have hsorted : List.Pairwise (fun a b => Database.submittedLater a b = true)
      [attempt 5 "pending", attempt 4 "regraded"] := by decide +kernel
  refine ⟨by rw [hrows]; rfl, ?_⟩
  rw [Submission.perform_list, hrows, List.mergeSort_of_pairwise hsorted]
  rfl

end ContestPlatform
