import Reachability.Span
import Reachability.Table

set_option autoImplicit false

/-! # Circuits

A circuit counts the failures of a host in a row. Once they reach the threshold the circuit is open:
no request goes out until the cooldown has passed since the last failure; then the count starts
afresh. A success closes the circuit at once. The empty host has no circuit. -/

namespace Reachability

/-- When circuits open and how long they stay open. -/
structure CircuitPolicy where
  /-- The number of failures that opens a circuit. -/
  threshold : Nat
  /-- How long a circuit stays open after the last failure. -/
  cooldown : Span
  deriving DecidableEq

namespace CircuitPolicy

/-- The policy that takes the place of zero settings. -/
def standard : CircuitPolicy := ⟨3, .ofSeconds 30⟩

/-- The policy with the given settings; zero stands for the standard. -/
def ofSettings (threshold : Nat) (cooldown : Span) : CircuitPolicy where
  threshold := if threshold = 0 then standard.threshold else threshold
  cooldown := if cooldown = .zero then standard.cooldown else cooldown

end CircuitPolicy

/-- The failures of one host. -/
structure Circuit where
  /-- The number of failures in a row. -/
  failures : Nat
  /-- When the last of them was recorded. -/
  last : Span
  deriving DecidableEq

namespace Circuit

/-- No more failures than this are counted. -/
def mostFailures : Nat := Text.halfWordBound - 1

/-- One more failure. -/
def fail (c : Circuit) (now : Span) : Circuit := ⟨min (c.failures + 1) mostFailures, now⟩

/-- Whether the circuit keeps requests back. -/
def isOpen (policy : CircuitPolicy) (now : Span) (c : Circuit) : Bool :=
  policy.threshold ≤ c.failures && (now.sub c.last).nanos < policy.cooldown.nanos

/-- Whether the circuit has been open and has cooled down. -/
def hasCooled (policy : CircuitPolicy) (now : Span) (c : Circuit) : Bool :=
  policy.threshold ≤ c.failures && policy.cooldown.nanos ≤ (now.sub c.last).nanos

end Circuit

/-- The circuits of all hosts that have failed since their last reset. -/
abbrev Circuits := Table String Circuit

namespace Circuits

/-- Whether a request to a host may go out, and the circuits after asking: one that has cooled down
    is reset. -/
def allow (policy : CircuitPolicy) (now : Span) (host : String) (cs : Circuits) :
    Bool × Circuits :=
  match if host.isEmpty then none else cs.get? host with
  | none => (true, cs)
  | some c =>
    if c.isOpen policy now then (false, cs)
    else if c.hasCooled policy now then (true, cs.erase host)
    else (true, cs)

/-- Records that a host answered. -/
def success (host : String) (cs : Circuits) : Circuits :=
  if host.isEmpty then cs else cs.erase host

/-- Records that a host failed. -/
def failure (now : Span) (host : String) (cs : Circuits) : Circuits :=
  if host.isEmpty then cs
  else cs.insert host (((cs.get? host).getD ⟨0, now⟩).fail now)

/-- The failures recorded for a host. -/
def failureCount (host : String) (cs : Circuits) : Nat :=
  match cs.get? host with
  | some c => c.failures
  | none => 0

end Circuits

end Reachability
