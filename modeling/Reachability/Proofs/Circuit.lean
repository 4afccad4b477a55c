import Reachability.Circuit

set_option autoImplicit false

/-! # What circuits keep of each host

The circuits of different hosts have nothing to do with each other: what is asked and recorded of
one host depends on its own circuit only and leaves the others as they are. A host that fails counts
one failure more, up to the largest number that is counted; a host that answers has none. -/

namespace Reachability.Circuits

variable {policy : CircuitPolicy} {now : Span} {host other : String} {cs cs' : Circuits}

/-! ## One host does not concern another -/

theorem get?_allow_of_ne (h : other ≠ host) :
    (cs.allow policy now host).2.get? other = cs.get? other := by
  unfold allow
  split
  · rfl
  · split
    · rfl
    · split
      · simp [h]
      · rfl

theorem get?_success_of_ne (h : other ≠ host) : (cs.success host).get? other = cs.get? other := by
  unfold success
  split
  · rfl
  · simp [h]

theorem get?_failure_of_ne (h : other ≠ host) :
    (cs.failure now host).get? other = cs.get? other := by
  unfold failure
  split
  · rfl
  · simp [h]

theorem failureCount_congr (h : cs.get? host = cs'.get? host) :
    cs.failureCount host = cs'.failureCount host := by
  rw [failureCount, failureCount, h]

/-- Whether a host may be asked, and what is counted of it then, depends on its own circuit. -/
theorem allow_congr (policy : CircuitPolicy) (now : Span) (h : cs.get? host = cs'.get? host) :
    (cs.allow policy now host).1 = (cs'.allow policy now host).1 ∧
      (cs.allow policy now host).2.get? host = (cs'.allow policy now host).2.get? host := by
  unfold allow
  rw [h]
  split
  · exact ⟨rfl, h⟩
  · split
    · exact ⟨rfl, h⟩
    · split
      · exact ⟨rfl, by simp⟩
      · exact ⟨rfl, h⟩

/-! ## What is counted -/

/-- A host that may not be asked leaves no trace. -/
theorem allow_eq_of_denied (h : (cs.allow policy now host).1 = false) :
    (cs.allow policy now host).2 = cs := by
  unfold allow at h ⊢
  split at h
  · cases h
  · split at h
    · next hopen => rw [if_pos hopen]
    · split at h <;> cases h

theorem failureCount_allow_le :
    (cs.allow policy now host).2.failureCount host ≤ cs.failureCount host := by
  unfold allow
  split
  · exact Nat.le_refl _
  · split
    · exact Nat.le_refl _
    · split
      · simp [failureCount]
      · exact Nat.le_refl _

theorem get?_success (h : host ≠ "") : (cs.success host).get? host = none := by
  simp [success, h]

theorem get?_failure (h : host ≠ "") : (cs.failure now host).get? host
    = some ⟨min (cs.failureCount host + 1) Circuit.mostFailures, now⟩ := by
  have hinsert : cs.failure now host
      = cs.insert host (((cs.get? host).getD ⟨0, now⟩).fail now) := by
    simp [failure, h]
  rw [hinsert, Table.get?_insert, if_pos rfl, failureCount]
  cases cs.get? host <;> rfl

theorem failureCount_success (h : host ≠ "") : (cs.success host).failureCount host = 0 := by
  rw [failureCount, get?_success h]

theorem failureCount_failure (h : host ≠ "") :
    (cs.failure now host).failureCount host
      = min (cs.failureCount host + 1) Circuit.mostFailures := by
  rw [failureCount, get?_failure h]

/-! ## What a host is told

Asked for a host, the circuits look at its own. -/

theorem allow_of_none (h : cs.get? host = none) : cs.allow policy now host = (true, cs) := by
  unfold allow
  rw [h, ite_self]

theorem allow_of_some {c : Circuit} (policy : CircuitPolicy) (now : Span) (hne : host ≠ "")
    (h : cs.get? host = some c) :
    cs.allow policy now host =
      if c.failures < policy.threshold then (true, cs)
      else if (now.sub c.last).nanos < policy.cooldown.nanos then (false, cs)
      else (true, cs.erase host) := by
  have hcircuit : (if host.isEmpty then none else cs.get? host) = some c := by simp [hne, h]
  unfold allow
  rw [hcircuit]
  dsimp only
  by_cases hbelow : c.failures < policy.threshold
  · have hopen : ¬ c.isOpen policy now = true := by
      simp [Circuit.isOpen, Nat.not_le.2 hbelow]
    have hcooled : ¬ c.hasCooled policy now = true := by
      simp [Circuit.hasCooled, Nat.not_le.2 hbelow]
    rw [if_neg hopen, if_neg hcooled, if_pos hbelow]
  · have hreached : policy.threshold ≤ c.failures := Nat.not_lt.1 hbelow
    rw [if_neg hbelow]
    by_cases hwithin : (now.sub c.last).nanos < policy.cooldown.nanos
    · have hopen : c.isOpen policy now = true := by
        rw [Circuit.isOpen, Bool.and_eq_true]
        exact ⟨decide_eq_true hreached, decide_eq_true hwithin⟩
      rw [if_pos hopen, if_pos hwithin]
    · have hopen : ¬ c.isOpen policy now = true := by
        rw [Circuit.isOpen, Bool.and_eq_true]
        exact fun h => hwithin (of_decide_eq_true h.2)
      have hcooled : c.hasCooled policy now = true := by
        rw [Circuit.hasCooled, Bool.and_eq_true]
        exact ⟨decide_eq_true hreached, decide_eq_true (Nat.not_lt.1 hwithin)⟩
      rw [if_neg hopen, if_pos hcooled, if_neg hwithin]

/-- A host with fewer failures than the threshold may be asked, whenever that is. -/
theorem allow_of_below (now : Span) (hne : host ≠ "")
    (below : cs.failureCount host < policy.threshold) :
    cs.allow policy now host = (true, cs) := by
  cases hc : cs.get? host with
  | none => exact allow_of_none hc
  | some c =>
      have hcount : cs.failureCount host = c.failures := by rw [failureCount, hc]
      rw [allow_of_some policy now hne hc, if_pos (hcount ▸ below)]

/-! ## The empty host -/

theorem allow_empty : cs.allow policy now "" = (true, cs) := rfl

end Reachability.Circuits

namespace Reachability.CircuitPolicy

/-! ## Settings -/

/-- A circuit opens after some failures. -/
theorem threshold_pos (threshold : Nat) (cooldown : Span) :
    0 < (ofSettings threshold cooldown).threshold := by
  unfold ofSettings
  dsimp only
  split
  · decide
  · exact Nat.pos_of_ne_zero ‹_›

/-- A circuit can open before no more failures are counted. -/
theorem threshold_le_mostFailures (threshold : UInt32) (cooldown : Span) :
    (ofSettings threshold.toNat cooldown).threshold ≤ Circuit.mostFailures := by
  unfold ofSettings
  dsimp only
  split
  · decide
  · exact Nat.le_sub_one_of_lt threshold.toNat_lt

end Reachability.CircuitPolicy
