/-!
# Instants

A moment of universal time with a precision of one nanosecond. The second that follows
`seconds` as a leap second is told by `nanos` of one full second or more, so a leap second comes
after all of the second before it and before the next one.
-/

namespace DiscussionBoard

structure Instant where
  /-- Seconds since 1 January 1970, leap seconds not counted. -/
  seconds : Int
  nanos : Nat
  nanos_lt : nanos < 2000000000 := by decide
deriving DecidableEq

namespace Instant

/-- The start of a second. -/
def ofSeconds (seconds : Int) : Instant :=
  { seconds, nanos := 0 }

instance : Inhabited Instant := ⟨ofSeconds 0⟩

/-- One number that orders instants. -/
def ticks (instant : Instant) : Int :=
  instant.seconds * 2000000000 + instant.nanos

instance : LT Instant := ⟨fun a b => a.ticks < b.ticks⟩

instance : LE Instant := ⟨fun a b => a.ticks ≤ b.ticks⟩

instance (a b : Instant) : Decidable (a < b) := inferInstanceAs (Decidable (a.ticks < b.ticks))

instance (a b : Instant) : Decidable (a ≤ b) := inferInstanceAs (Decidable (a.ticks ≤ b.ticks))

def addHours (instant : Instant) (hours : Int) : Instant :=
  { instant with seconds := instant.seconds + hours * 3600 }

/-- An instant outside every leap second. -/
def IsPlain (instant : Instant) : Prop :=
  instant.nanos < 1000000000

theorem le_iff_ticks_le {a b : Instant} : a ≤ b ↔ a.ticks ≤ b.ticks := Iff.rfl

theorem not_le_iff_lt {a b : Instant} : ¬ a ≤ b ↔ b < a := Int.not_le

theorem ticks_inj {a b : Instant} : a.ticks = b.ticks ↔ a = b := by
  constructor
  · intro h
    obtain ⟨aseconds, ananos, hananos⟩ := a
    obtain ⟨bseconds, bnanos, hbnanos⟩ := b
    simp only [ticks] at h
    obtain ⟨rfl, rfl⟩ : aseconds = bseconds ∧ ananos = bnanos := by omega
    rfl
  · rintro rfl
    rfl

theorem ticks_addHours (instant : Instant) (hours : Int) :
    (instant.addHours hours).ticks = instant.ticks + hours * 7200000000000 := by
  simp only [ticks, addHours]
  omega

end Instant

end DiscussionBoard
