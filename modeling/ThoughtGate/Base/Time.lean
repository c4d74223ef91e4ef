import Mathlib.Algebra.Group.Int.Defs
import Mathlib.Algebra.Group.Nat.Defs
import Mathlib.Data.Int.Notation
import Mathlib.Order.Lattice

/-!
# Times and durations

`std::time::Duration` is a number of nanoseconds, `chrono::DateTime<Utc>` and `Instant` are signed nanosecond
counts. The clock is an input of every operation that reads it.
-/

namespace ThoughtGate

/-- `std::time::Duration`, in nanoseconds. -/
abbrev Duration := Nat

/-- `chrono::DateTime<Utc>`, in nanoseconds. -/
abbrev DateTime := Int

/-- `std::time::Instant`, in nanoseconds. -/
abbrev Instant := Int

/-- `Instant + Duration`, which panics when the seconds leave `i64`. -/
def Instant.checkedAdd (now : Instant) (d : Duration) : Option Instant :=
  if now + d < 2 ^ 63 * 1000000000 then some (now + d) else none

namespace Instant

theorem checkedAdd_eq_some {now t : Instant} {d : Duration} (h : now.checkedAdd d = some t) : t = now + d := by
  unfold checkedAdd at h
  split at h
  · exact (Option.some.inj h).symm
  · cases h

end Instant

namespace Duration

def fromSecs (secs : Nat) : Duration := secs * 1000000000

def asSecs (d : Duration) : Nat := d / 1000000000

def asMillis (d : Duration) : Nat := d / 1000000

/-- `chrono::Duration::from_std`: a `chrono` duration holds at most `i64::MAX` milliseconds. -/
def toChrono (d : Duration) : Option Int :=
  if d ≤ (2 ^ 63 - 1) * 1000000 then some d else none

/-- `chrono::Duration::days`. -/
def chronoDays (n : Nat) : Int := n * 86400 * 1000000000

end Duration

end ThoughtGate
