import Reachability.Span

set_option autoImplicit false

/-! # Clocks

What failures are timed with and what waits between attempts are asked of. A real clock goes with
time; a manual one only moves when it is told to, or by the length of a wait, which is over at once;
on a stalled one no wait ever ends. Times are in milliseconds. -/

namespace Reachability

/-- The kinds of clocks. -/
inductive ClockKind where
  | real
  | manual
  | stalled
  deriving DecidableEq

/-- A clock and the waits that were asked of it. -/
structure Clock where
  /-- The kind of the clock. -/
  kind : ClockKind
  /-- How far a clock that does not go with time has been moved. -/
  offset : Span
  /-- The waits asked for, the last one first. -/
  sleeps : List Span
  deriving DecidableEq

namespace Clock

/-- The number of seconds after which there is no time, counted from the start of the machine. -/
def endOfTime : Nat := Text.wordBound / 2

/-- A clock of a kind before it is used. -/
def ofKind (kind : ClockKind) : Clock := ⟨kind, .zero, []⟩

/-- What the clock shows at a time. -/
def reading (c : Clock) (now : Nat) : Span :=
  match c.kind with
  | .real => .ofMillis now
  | _ => c.offset

/-- Moves the clock, whatever its kind. -/
def move (c : Clock) (d : Span) : Clock := { c with offset := c.offset.add d }

/-- The longest wait in milliseconds, in which a real clock ends all longer ones: thirty years of 365
    days. -/
def longestWait : Nat := 30 * 365 * 24 * 60 * 60 * 1000

/-- Asks for a wait: the clock afterwards, and when the wait is over, if ever. -/
def sleep (c : Clock) (d : Span) (now : Nat) : Clock × Option Nat :=
  let c := { c with sleeps := d :: c.sleeps }
  match c.kind with
  | .real => (c, some (now + min d.ceilMillis longestWait))
  | .manual => (c.move d, some now)
  | .stalled => (c, none)

end Clock

end Reachability
