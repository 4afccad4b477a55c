import Reachability.Guard

set_option autoImplicit false

/-! # The network

A network is what it answers: to a look-up of a name, and to the first, second, … request to a host.
An answer takes its time, or never comes. -/

namespace Reachability

/-- Why a request got no answer. -/
inductive RequestError where
  | failed (reason : String)
  | deadline
  | setup (reason : String)
  deriving DecidableEq

/-- The error in words. -/
def RequestError.message : RequestError → String
  | failed reason => "request failed: " ++ reason
  | deadline => "deadline exceeded"
  | setup reason => "failed to build HTTP client: " ++ reason

/-- Something that comes after a delay in milliseconds, if ever. -/
structure Delayed (α : Type) where
  /-- What comes. -/
  value : α
  /-- How long it takes; none if it never comes. -/
  delay : Option Nat

/-- When something asked for at `now` comes. -/
def Delayed.finish {α : Type} (d : Delayed α) (now : Nat) : Option Nat := d.delay.map (now + ·)

/-- What a network answers. -/
structure Network where
  /-- The answer to a look-up. -/
  lookup : String → Delayed Guard.Answer
  /-- The status, or the error, that answers the request to a host after that many others. -/
  reply : String → Nat → Delayed (Except RequestError Nat)

/-- The network that reaches nothing. -/
def Network.none : Network where
  lookup _ := ⟨.error "no network", some 0⟩
  reply _ _ := ⟨.error (.failed "no network"), some 0⟩

/-- A request that was made. -/
structure Call where
  /-- When it was made. -/
  time : Nat
  /-- The host that it went to. -/
  host : String
  /-- The URL that it asked for. -/
  url : List Char
  deriving DecidableEq

/-- What has gone over the network. -/
structure Traffic where
  /-- The requests, the last one first. -/
  calls : List Call
  /-- The names looked up, the last one first. -/
  lookups : List String
  /-- The requests that have not been answered, given up or not. -/
  unanswered : Nat
  /-- The most requests that were unanswered at once. -/
  peak : Nat
  deriving DecidableEq

namespace Traffic

/-- Nothing. -/
def none : Traffic := ⟨[], [], 0, 0⟩

/-- The number of requests to a host. -/
def callsTo (t : Traffic) (host : String) : Nat := (t.calls.filter (·.host = host)).length

/-- One more look-up. -/
def addLookup (t : Traffic) (name : String) : Traffic := { t with lookups := name :: t.lookups }

/-- One more request. -/
def addCall (t : Traffic) (c : Call) : Traffic :=
  { t with
    calls := c :: t.calls
    unanswered := t.unanswered + 1
    peak := max t.peak (t.unanswered + 1) }

/-- One request has been answered. -/
def answered (t : Traffic) : Traffic := { t with unanswered := t.unanswered - 1 }

end Traffic

end Reachability
