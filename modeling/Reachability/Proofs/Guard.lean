import Reachability.Guard
import Reachability.Proofs.Net.Address

set_option autoImplicit false

/-! # What the guard lets through

The guard judges some hosts at once and has the names of others looked up. Put together
(`isBlocked`), it lets through just the hosts that are known to be public
(`isBlocked_eq_false_iff`): who has no address that may be asked is blocked, and so is who has no
answer. -/

namespace Reachability.Guard

/-- Whether a host is blocked, given the answers to all look-ups. -/
def isBlocked (lookup : String → Answer) (host : Option Url.Host) : Bool :=
  match judge host with
  | .decided blocked => blocked
  | .ask name => blocks (lookup name)

/-- The hosts that are public, given the answers to all look-ups: addresses and names that read as
    addresses speak for themselves, and one address is enough for any other name. -/
inductive Public (lookup : String → Answer) : Option Url.Host → Prop where
  | address {a : Address} (allowed : ¬ a.Forbidden) : Public lookup (some (.address a))
  | numeral {name : List Char} {a : Address} (reads : Address.parse? name = some a)
      (allowed : ¬ a.Forbidden) : Public lookup (some (.domain name))
  | named {name : List Char} {addresses : List Address} {a : Address}
      (plain : Address.parse? name = none)
      (answer : lookup (String.ofList name) = .ok addresses) (mem : a ∈ addresses)
      (allowed : ¬ a.Forbidden) : Public lookup (some (.domain name))

/-- A name passes if it has an address that is not forbidden. -/
theorem blocks_eq_false_iff {answer : Answer} :
    blocks answer = false ↔ ∃ addresses, answer = .ok addresses ∧ ∃ a ∈ addresses, ¬ a.Forbidden := by
  match answer with
  | .error e => simp [blocks]
  | .ok [] => simp [blocks]
  | .ok (first :: rest) =>
      have hall : blocks (.ok (first :: rest)) = (first :: rest).all Address.isForbidden := rfl
      rw [hall, List.all_eq_false]
      simp [Address.isForbidden_iff]

theorem isBlocked_eq_false_iff {lookup : String → Answer} {host : Option Url.Host} :
    isBlocked lookup host = false ↔ Public lookup host := by
  match host with
  | none =>
      constructor
      · intro h
        cases h
      · intro h
        cases h
  | some (.address a) =>
      rw [show isBlocked lookup (some (.address a)) = a.isForbidden from rfl,
        Address.isForbidden_eq_false_iff]
      constructor
      · intro h
        exact .address h
      · rintro (h | _ | _)
        exact h
  | some (.domain name) =>
      cases hparse : Address.parse? name with
      | some a =>
          rw [show isBlocked lookup (some (.domain name)) = a.isForbidden by
            simp [isBlocked, judge, hparse], Address.isForbidden_eq_false_iff]
          constructor
          · intro h
            exact .numeral hparse h
          · intro h
            cases h with
            | numeral reads allowed =>
                obtain rfl := Option.some.inj (hparse.symm.trans reads)
                exact allowed
            | named plain => cases hparse.symm.trans plain
      | none =>
          rw [show isBlocked lookup (some (.domain name)) = blocks (lookup (String.ofList name)) by
            simp [isBlocked, judge, hparse], blocks_eq_false_iff]
          constructor
          · rintro ⟨addresses, answer, a, mem, allowed⟩
            exact .named hparse answer mem allowed
          · intro h
            cases h with
            | numeral reads => cases hparse.symm.trans reads
            | named plain answer mem allowed => exact ⟨_, answer, _, mem, allowed⟩

end Reachability.Guard
