/-!
# Instants

A point of universal time with nanoseconds. A leap second has no second of its own: it lies within
the second before it, at one thousand million nanoseconds or more. Order is by seconds, then by
nanoseconds, so a leap second comes before the full minute that follows it.

A timestamp column keeps whole microseconds; `stamp?` says what is left of an instant there.
-/

namespace ContestPlatform

/-- A point of universal time. -/
structure Instant where
  /-- Whole seconds since 1970-01-01T00:00:00Z. -/
  seconds : Int
  /-- Nanoseconds within the second; a leap second adds one thousand million. -/
  nanos : Nat
deriving DecidableEq, Inhabited

/-- What a timestamp column holds: microseconds since 1970-01-01T00:00:00Z. -/
abbrev Stamp : Type := Int

namespace Instant

/-- The number of nanoseconds of a second. -/
def nanosPerSecond : Nat := 1000000000

instance : LT Instant :=
  ⟨fun a b => a.seconds < b.seconds ∨ (a.seconds = b.seconds ∧ a.nanos < b.nanos)⟩

instance : LE Instant :=
  ⟨fun a b => a.seconds < b.seconds ∨ (a.seconds = b.seconds ∧ a.nanos ≤ b.nanos)⟩

instance (a b : Instant) : Decidable (a < b) :=
  inferInstanceAs (Decidable (_ ∨ (_ ∧ _)))

instance (a b : Instant) : Decidable (a ≤ b) :=
  inferInstanceAs (Decidable (_ ∨ (_ ∧ _)))

/-- The instant lies within a leap second. -/
def isLeapSecond (t : Instant) : Bool :=
  nanosPerSecond ≤ t.nanos

/-- The moment that timestamp columns count from, 2000-01-01T00:00:00Z, in seconds since 1970. -/
def columnEpoch : Int := 946684800

/-- The least timestamp that a column can hold, 4714-11-24 BC, in microseconds since 2000. -/
def leastStamp : Int := -211813488000000000

/-- What a timestamp column keeps of an instant: whole microseconds, cut towards
    2000-01-01T00:00:00Z. Nothing is kept of an instant before 4714-11-24 BC. -/
def stamp? (t : Instant) : Option Stamp :=
  let nanos : Int := (t.seconds - columnEpoch) * nanosPerSecond + t.nanos
  let micros := nanos.tdiv 1000
  if micros < leastStamp then none else some (micros + columnEpoch * 1000000)

/-- The instant that a timestamp column holds. Columns go on after the year 262142, with which the
    instants that can be told end. What is kept there could not be read, and this reader does not
    look for it: of what can be told, that is only a leap second at the very end. -/
def ofStamp (s : Stamp) : Instant :=
  ⟨s / 1000000, (s % 1000000).toNat * 1000⟩

end Instant

end ContestPlatform
