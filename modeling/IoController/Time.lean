/-!
# Time

Points in time and lengths of time are whole microseconds.  Nothing here reads a clock: every
operation that depends on the time is given it, and the times may go backwards.
-/

namespace IoController

/-- Microseconds since the start. -/
abbrev Instant := Nat

/-- A length of time in microseconds. -/
abbrev Duration := Nat

namespace Duration

/-- The duration of `n` milliseconds. -/
def milliseconds (n : Nat) : Duration := 1000 * n

/-- The duration of `n` seconds. -/
def seconds (n : Nat) : Duration := 1000000 * n

end Duration

/-- A time to wait for; without one there is nothing to wait for. -/
abbrev Deadline := Option Instant

namespace Deadline

/-- Whether the wait for `d` is over at `now`. -/
def reached (d : Deadline) (now : Instant) : Bool := d.all (· ≤ now)

@[simp] theorem reached_none (now : Instant) : reached none now = true := rfl

@[simp] theorem reached_some (t now : Instant) : reached (some t) now = decide (t ≤ now) := rfl

end Deadline

end IoController
