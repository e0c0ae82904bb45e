import DataTier.Time.Duration

/-! Readings of a clock. A reading has sixty-three bits of whole seconds, so adding a
duration to one may leave the range. -/

namespace DataTier.Time

structure Instant where
  nanoseconds : Nat
  deriving DecidableEq, Repr

namespace Instant

/-- Readings stay below this many seconds. -/
def secondsBound : Nat := Nat.pow 2 63

def start : Instant := ⟨0⟩

def inRange (t : Instant) : Bool := t.nanoseconds / 1000000000 < secondsBound

/-- The reading after a duration has passed, where the clock can show it. -/
def after? (t : Instant) (d : Duration) : Option Instant :=
  let later : Instant := ⟨t.nanoseconds + d.nanoseconds⟩
  if later.inRange then some later else none

def plus (t : Instant) (d : Duration) : Instant := ⟨t.nanoseconds + d.nanoseconds⟩

/-- Time does not run backwards: what lies ahead is no time ago. -/
def since (t earlier : Instant) : Duration := ⟨t.nanoseconds - earlier.nanoseconds⟩

def reached (t deadline : Instant) : Bool := deadline.nanoseconds ≤ t.nanoseconds

theorem after?_eq_some_iff (t u : Instant) (d : Duration) :
    t.after? d = some u ↔ u = t.plus d ∧ u.inRange = true := by
  simp only [after?, plus]
  split
  · next h =>
    constructor
    · rintro ⟨⟩
      exact ⟨rfl, h⟩
    · intro e
      rw [e.1]
  · next h =>
    constructor
    · rintro ⟨⟩
    · intro e
      exact absurd (e.1 ▸ e.2) h

theorem inRange_iff {t : Instant} :
    t.inRange = true ↔ t.nanoseconds < secondsBound * 1000000000 := by
  rw [inRange, decide_eq_true_eq]
  exact Nat.div_lt_iff_lt_mul (by decide)

theorem after?_eq_none_iff {t : Instant} {d : Duration} : t.after? d = none ↔
    secondsBound * 1000000000 ≤ t.nanoseconds + d.nanoseconds := by
  have late : t.after? d = none ↔ ¬(t.plus d).inRange = true := by
    rw [after?, plus]
    split <;> rename_i shown <;> simp [shown]
  rw [late, inRange_iff, plus, Nat.not_lt]

end DataTier.Time.Instant
