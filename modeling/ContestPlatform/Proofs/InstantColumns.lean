import ContestPlatform.Instant.Basic

/-!
# Instants and timestamp columns

Instants are compared by their seconds first, so a leap second comes before the minute that follows
it. A column counts nanoseconds instead, and drops what is less than a microsecond. So the column
keeps the order of two instants, weakly, if the earlier one is not within a leap second; what is
read back is compared as the stamps are.
-/

namespace ContestPlatform.Instant

variable {a b : Instant}

/-! ## The order of instants -/

theorem lt_iff :
    a < b ↔ a.seconds < b.seconds ∨ (a.seconds = b.seconds ∧ a.nanos < b.nanos) := Iff.rfl

theorem le_iff :
    a ≤ b ↔ a.seconds < b.seconds ∨ (a.seconds = b.seconds ∧ a.nanos ≤ b.nanos) := Iff.rfl

theorem not_lt : ¬ a < b ↔ b ≤ a := by
  rw [lt_iff, le_iff]
  omega

theorem not_le : ¬ a ≤ b ↔ b < a := by
  rw [lt_iff, le_iff]
  omega

theorem le_of_lt (h : a < b) : a ≤ b := by
  rw [lt_iff] at h
  rw [le_iff]
  omega

theorem lt_irrefl (a : Instant) : ¬ a < a := by
  rw [lt_iff]
  omega

theorem le_refl (a : Instant) : a ≤ a := by
  rw [le_iff]
  omega

theorem le_trans {c : Instant} (h : a ≤ b) (h' : b ≤ c) : a ≤ c := by
  rw [le_iff] at h h' ⊢
  omega

theorem lt_of_lt_of_le {c : Instant} (h : a < b) (h' : b ≤ c) : a < c := by
  rw [lt_iff] at h ⊢
  rw [le_iff] at h'
  omega

theorem lt_of_le_of_lt {c : Instant} (h : a ≤ b) (h' : b < c) : a < c := by
  rw [le_iff] at h
  rw [lt_iff] at h' ⊢
  omega

/-! ## What a column keeps of the order -/

/-- The nanoseconds since the moment that columns count from. -/
def columnNanos (t : Instant) : Int :=
  (t.seconds - columnEpoch) * nanosPerSecond + t.nanos

theorem stamp?_eq_some {t : Instant} {s : Stamp} (h : t.stamp? = some s) :
    s = t.columnNanos.tdiv 1000 + columnEpoch * 1000000 := by
  unfold stamp? at h
  dsimp only at h
  split at h
  · exact nomatch h
  · exact (Option.some.inj h).symm

/-- After a leap second the count runs ahead of the order, so the earlier instant has to be none. -/
theorem columnNanos_le (hleap : a.isLeapSecond = false) (h : a ≤ b) :
    a.columnNanos ≤ b.columnNanos := by
  have hnanos : ¬ nanosPerSecond ≤ a.nanos := of_decide_eq_false hleap
  rw [le_iff] at h
  simp only [columnNanos, nanosPerSecond] at hnanos ⊢
  omega

theorem stamp_le {s s' : Int} (hleap : a.isLeapSecond = false) (h : a ≤ b)
    (ha : a.stamp? = some s) (hb : b.stamp? = some s') : s ≤ s' := by
  have hnanos := columnNanos_le hleap h
  have hmicros := Int.tdiv_le_tdiv (c := 1000) (by decide) hnanos
  rw [stamp?_eq_some ha, stamp?_eq_some hb]
  omega

theorem ofStamp_le {s s' : Int} : ofStamp s ≤ ofStamp s' ↔ s ≤ s' := by
  rw [le_iff]
  simp only [ofStamp]
  omega

theorem ofStamp_lt {s s' : Int} : ofStamp s < ofStamp s' ↔ s < s' := by
  rw [lt_iff]
  simp only [ofStamp]
  omega

/-- An instant that is not before one that a column holds can be kept. -/
theorem exists_stamp {t : Instant} {stamp : Stamp} (h : ofStamp stamp ≤ t)
    (hcolumn : leastStamp ≤ stamp - columnEpoch * 1000000) : ∃ kept, t.stamp? = some kept := by
  have hleap : (ofStamp stamp).isLeapSecond = false := by
    refine decide_eq_false ?_
    simp only [ofStamp, nanosPerSecond]
    omega
  have hnanos : (stamp - columnEpoch * 1000000) * 1000 ≤ t.columnNanos := by
    refine Int.le_trans (Int.le_of_eq ?_) (columnNanos_le hleap h)
    simp only [columnNanos, ofStamp, columnEpoch, nanosPerSecond]
    omega
  have hmicros : leastStamp ≤ t.columnNanos.tdiv 1000 := by
    have htdiv := Int.tdiv_le_tdiv (c := 1000) (by decide) hnanos
    rw [Int.mul_tdiv_cancel _ (by decide)] at htdiv
    exact Int.le_trans hcolumn htdiv
  refine ⟨t.columnNanos.tdiv 1000 + columnEpoch * 1000000, ?_⟩
  unfold stamp?
  exact if_neg (Int.not_lt.mpr hmicros)

end ContestPlatform.Instant
