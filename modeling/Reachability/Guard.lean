import Reachability.Url.Basic

set_option autoImplicit false

/-! # The guard

No request goes to a host that is not public. An address speaks for itself; a name is looked up, and
one public address among its addresses lets it through. -/

namespace Reachability.Guard

/-- What looking a name up gives: its addresses, or why there is no answer. -/
abbrev Answer := Except String (List Address)

/-- What can be said of a host before anything is looked up. -/
inductive Verdict where
  | decided (blocked : Bool)
  | ask (name : String)
  deriving DecidableEq

/-- Judges a host. Without one there is nothing to ask for. -/
def judge : Option Url.Host → Verdict
  | none => .decided true
  | some (.address a) => .decided a.isForbidden
  | some (.domain name) =>
    match Address.parse? name with
    | some a => .decided a.isForbidden
    | none => .ask (String.ofList name)

/-- Whether the addresses of a name block it. -/
def blocks : Answer → Bool
  | .error _ => true
  | .ok [] => true
  | .ok addresses => addresses.all Address.isForbidden

end Reachability.Guard
