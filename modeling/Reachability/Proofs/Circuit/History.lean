import Reachability.Proofs.Circuit

set_option autoImplicit false

/-! # Circuits refine the histories of their hosts

What the circuits tell of a host is read off its history: the calls that named it and the advances
of the clock. A success resets the circuit of a host; so does a request that comes after at least as
many failures as the threshold, once the cooldown has passed since the last of them. What is counted
is the number of failures since the latest reset (`after_refines`). Histories are listed with their
latest move first. -/

namespace Reachability.Circuits

/-- What can happen to circuits and their clock. -/
inductive Move where
  | allow (host : String)
  | success (host : String)
  | failure (host : String)
  | advance (d : Span)
  deriving DecidableEq

/-- Circuits with the clock that times their failures. -/
structure Timed where
  now : Span
  circuits : Circuits
  deriving DecidableEq

/-- The circuits after one more move. -/
def Timed.move (policy : CircuitPolicy) (b : Timed) : Move → Timed
  | .allow host => { b with circuits := (b.circuits.allow policy b.now host).2 }
  | .success host => { b with circuits := b.circuits.success host }
  | .failure host => { b with circuits := b.circuits.failure b.now host }
  | .advance d => { b with now := b.now.add d }

/-- The circuits after a history that began without failures, at a reading of the clock. -/
def after (policy : CircuitPolicy) (start : Span) : List Move → Timed
  | [] => ⟨start, .empty⟩
  | m :: past => (after policy start past).move policy m

/-! ## What a history tells -/

/-- What the clock shows after a history. -/
def reading (start : Span) : List Move → Span
  | [] => start
  | .advance d :: past => (reading start past).add d
  | _ :: past => reading start past

/-- What the clock showed when a host failed for the last time. -/
def lastFailure? (start : Span) (host : String) : List Move → Option Span
  | [] => none
  | m :: past =>
    if m = .failure host then some (reading start past) else lastFailure? start host past

/-- How many nanoseconds have passed since a host failed for the last time. -/
def sinceFailure? (start : Span) (host : String) (past : List Move) : Option Nat :=
  (lastFailure? start host past).map fun t => ((reading start past).sub t).nanos

/-- Whether a move resets the circuit of a host, where it finds `count` failures since the previous
    reset. -/
def Resets (policy : CircuitPolicy) (start : Span) (host : String) (past : List Move) (count : Nat)
    (m : Move) : Prop :=
  m = .success host ∨
    m = .allow host ∧ policy.threshold ≤ count ∧
      ∃ n ∈ sinceFailure? start host past, policy.cooldown.nanos ≤ n

instance (policy : CircuitPolicy) (start : Span) (host : String) (past : List Move) (count : Nat)
    (m : Move) : Decidable (Resets policy start host past count m) :=
  inferInstanceAs (Decidable (_ ∨ _ ∧ _ ∧ _))

/-- The moves since the latest reset of the circuit of a host. -/
def sinceReset (policy : CircuitPolicy) (start : Span) (host : String) : List Move → List Move
  | [] => []
  | m :: past =>
    if Resets policy start host past ((sinceReset policy start host past).count (.failure host)) m
    then [] else m :: sinceReset policy start host past

/-- The number of failures of a host since the latest reset of its circuit. -/
def failures (policy : CircuitPolicy) (start : Span) (host : String) (past : List Move) : Nat :=
  (sinceReset policy start host past).count (.failure host)

/-- Whether a move concerns a host. The clock concerns every host. -/
def Move.concerns (host : String) : Move → Bool
  | .allow h | .success h | .failure h => h = host
  | .advance _ => true

variable {policy : CircuitPolicy} {start : Span} {host : String} {past : List Move} {m : Move}

theorem sinceReset_of_resets
    (h : Resets policy start host past (failures policy start host past) m) :
    sinceReset policy start host (m :: past) = [] := if_pos h

theorem sinceReset_of_not_resets
    (h : ¬ Resets policy start host past (failures policy start host past) m) :
    sinceReset policy start host (m :: past) = m :: sinceReset policy start host past := if_neg h

/-- The latest reset is where the failures that count begin: no move after it is a reset, and if
    there is none, all failures count. -/
theorem sinceReset_spec (policy : CircuitPolicy) (start : Span) (host : String)
    (past : List Move) :
    ∃ older, past = sinceReset policy start host past ++ older ∧
      (∀ recent m before, sinceReset policy start host past = recent ++ m :: before →
        ¬ Resets policy start host (before ++ older)
          (failures policy start host (before ++ older)) m) ∧
      (∀ m before, older = m :: before →
        Resets policy start host before (failures policy start host before) m) := by
  induction past with
  | nil => exact ⟨[], rfl, by simp [sinceReset], nofun⟩
  | cons m past ih =>
      obtain ⟨older, hpast, hnone, hreset⟩ := ih
      by_cases hm : Resets policy start host past (failures policy start host past) m
      · refine ⟨m :: past, ?_, ?_, ?_⟩
        · rw [sinceReset_of_resets hm, List.nil_append]
        · rw [sinceReset_of_resets hm]
          simp
        · rintro _ _ ⟨⟩
          exact hm
      · refine ⟨older, ?_, ?_, hreset⟩
        · rw [sinceReset_of_not_resets hm, List.cons_append, ← hpast]
        · rw [sinceReset_of_not_resets hm]
          intro recent m' before heq
          cases recent with
          | nil =>
              obtain ⟨rfl, rfl⟩ := List.cons.inj heq
              rwa [← hpast]
          | cons _ recent => exact hnone recent m' before (List.cons.inj heq).2

/-! ## One more move -/

theorem failures_of_resets
    (h : Resets policy start host past (failures policy start host past) m) :
    failures policy start host (m :: past) = 0 := by
  rw [failures, sinceReset_of_resets h, List.count_nil]

theorem failures_of_not_resets
    (h : ¬ Resets policy start host past (failures policy start host past) m)
    (hm : m ≠ .failure host) :
    failures policy start host (m :: past) = failures policy start host past := by
  rw [failures, sinceReset_of_not_resets h, List.count_cons_of_ne hm, failures]

theorem failures_failure : failures policy start host (.failure host :: past)
    = failures policy start host past + 1 := by
  have h : ¬ Resets policy start host past (failures policy start host past) (.failure host) := by
    rintro (h | ⟨h, -⟩) <;> cases h
  rw [failures, sinceReset_of_not_resets h, List.count_cons_self, failures]

theorem lastFailure?_of_ne (hm : m ≠ .failure host) :
    lastFailure? start host (m :: past) = lastFailure? start host past := by
  rw [lastFailure?, if_neg hm]

theorem lastFailure?_failure :
    lastFailure? start host (.failure host :: past) = some (reading start past) := by
  rw [lastFailure?, if_pos rfl]

theorem now_after (policy : CircuitPolicy) (start : Span) (past : List Move) :
    (after policy start past).now = reading start past := by
  induction past with
  | nil => rfl
  | cons m past ih => cases m <;> simp [after, Timed.move, reading, ih]

/-! ## The circuit of a host agrees with its history -/

/-- What a circuit is after `count` failures since the latest reset, the last of all failures at
    `last`. -/
def Agrees (count : Nat) (last : Option Span) : Option Circuit → Prop
  | none => count = 0
  | some c => 0 < count ∧ c.failures = min count Circuit.mostFailures ∧ last = some c.last

theorem failureCount_of_agrees {count : Nat} {last : Option Span} {cs : Circuits}
    (h : Agrees count last (cs.get? host)) :
    cs.failureCount host = min count Circuit.mostFailures := by
  rw [failureCount]
  cases hc : cs.get? host with
  | none =>
      rw [hc] at h
      rw [show count = 0 from h]
      rfl
  | some c =>
      rw [hc] at h
      exact h.2.1

/-- Moves that do not concern a host. -/
theorem move_of_not_concerns (policy : CircuitPolicy) (b : Timed) (h : m.concerns host = false) :
    (b.move policy m).now = b.now ∧
      (b.move policy m).circuits.get? host = b.circuits.get? host := by
  cases m with
  | allow other =>
      exact ⟨rfl, get?_allow_of_ne fun heq => of_decide_eq_false h heq.symm⟩
  | success other =>
      exact ⟨rfl, get?_success_of_ne fun heq => of_decide_eq_false h heq.symm⟩
  | failure other =>
      exact ⟨rfl, get?_failure_of_ne fun heq => of_decide_eq_false h heq.symm⟩
  | advance d => cases h

/-- What a move does to the circuit of a host depends on that circuit and the clock. -/
theorem move_congr (policy : CircuitPolicy) {b b' : Timed} (m : Move) (hnow : b.now = b'.now)
    (hcircuit : b.circuits.get? host = b'.circuits.get? host) :
    (b.move policy m).now = (b'.move policy m).now ∧
      (b.move policy m).circuits.get? host = (b'.move policy m).circuits.get? host := by
  by_cases hm : m.concerns host = true
  · cases m with
    | allow other =>
        obtain rfl : other = host := of_decide_eq_true hm
        refine ⟨hnow, ?_⟩
        simp only [Timed.move]
        rw [hnow]
        exact (allow_congr policy b'.now hcircuit).2
    | success other =>
        obtain rfl : other = host := of_decide_eq_true hm
        refine ⟨hnow, ?_⟩
        simp only [Timed.move, success]
        split
        · exact hcircuit
        · simp
    | failure other =>
        obtain rfl : other = host := of_decide_eq_true hm
        refine ⟨hnow, ?_⟩
        simp only [Timed.move, failure]
        split
        · exact hcircuit
        · simp [hnow, hcircuit]
    | advance d => exact ⟨congrArg (·.add d) hnow, hcircuit⟩
  · obtain ⟨hb, hbc⟩ := move_of_not_concerns policy b (Bool.not_eq_true _ ▸ hm)
    obtain ⟨hb', hbc'⟩ := move_of_not_concerns policy b' (Bool.not_eq_true _ ▸ hm)
    rw [hb, hbc, hb', hbc']
    exact ⟨hnow, hcircuit⟩

theorem not_resets_of_not_concerns (policy : CircuitPolicy) (start : Span) (past : List Move)
    (count : Nat) (h : m.concerns host = false) :
    ¬ Resets policy start host past count m ∧ m ≠ .failure host := by
  refine ⟨?_, ?_⟩
  · rintro (rfl | ⟨rfl, -⟩) <;> simp [Move.concerns] at h
  · rintro rfl
    simp [Move.concerns] at h

/-- A circuit that may be asked for is kept or reset, just as the history says. -/
theorem agrees_allow (hne : host ≠ "") (hpos : 0 < policy.threshold)
    (hmost : policy.threshold ≤ Circuit.mostFailures)
    (h : Agrees (failures policy start host past) (lastFailure? start host past)
      ((after policy start past).circuits.get? host)) :
    Agrees (failures policy start host (.allow host :: past))
      (lastFailure? start host (.allow host :: past))
      ((after policy start (.allow host :: past)).circuits.get? host) := by
  have hm : Move.allow host ≠ .failure host := Move.noConfusion
  rw [lastFailure?_of_ne hm]
  simp only [after, Timed.move]
  cases hc : (after policy start past).circuits.get? host with
  | none =>
      rw [hc] at h
      have hzero : failures policy start host past = 0 := h
      have hkept : ¬ Resets policy start host past (failures policy start host past)
          (.allow host) := by
        intro hr
        rw [Resets, hzero] at hr
        rcases hr with hr | ⟨-, hr, -⟩
        · cases hr
        · omega
      rw [allow_of_none hc, failures_of_not_resets hkept hm, hc]
      exact hzero
  | some c =>
      rw [hc] at h
      obtain ⟨hcount, hfailures, hlast⟩ := h
      have hsince : sinceFailure? start host past
          = some ((reading start past).sub c.last).nanos := by
        rw [sinceFailure?, hlast, Option.map_some]
      have hresets : Resets policy start host past (failures policy start host past) (.allow host) ↔
          policy.threshold ≤ c.failures ∧
            policy.cooldown.nanos ≤ ((reading start past).sub c.last).nanos := by
        rw [Resets, hsince, hfailures, Nat.le_min]
        simp [hmost]
      rw [allow_of_some _ _ hne hc, now_after]
      by_cases hbelow : c.failures < policy.threshold
      · have hkept := fun hr => Nat.not_le.2 hbelow (hresets.1 hr).1
        rw [if_pos hbelow, hc, failures_of_not_resets hkept hm]
        exact ⟨hcount, hfailures, hlast⟩
      · rw [if_neg hbelow]
        by_cases hwithin : ((reading start past).sub c.last).nanos < policy.cooldown.nanos
        · have hkept := fun hr => Nat.not_le.2 hwithin (hresets.1 hr).2
          rw [if_pos hwithin, hc, failures_of_not_resets hkept hm]
          exact ⟨hcount, hfailures, hlast⟩
        · have hreset := hresets.2 ⟨Nat.not_lt.1 hbelow, Nat.not_lt.1 hwithin⟩
          rw [if_neg hwithin, failures_of_resets hreset, Table.get?_erase, if_pos rfl]
          rfl

/-- Every move keeps the circuit of a host in agreement with the history. -/
theorem agrees_move (hne : host ≠ "") (hpos : 0 < policy.threshold)
    (hmost : policy.threshold ≤ Circuit.mostFailures) (m : Move)
    (h : Agrees (failures policy start host past) (lastFailure? start host past)
      ((after policy start past).circuits.get? host)) :
    Agrees (failures policy start host (m :: past)) (lastFailure? start host (m :: past))
      ((after policy start (m :: past)).circuits.get? host) := by
  by_cases hm : m.concerns host = true
  · cases m with
    | allow other =>
        obtain rfl : other = host := of_decide_eq_true hm
        exact agrees_allow hne hpos hmost h
    | success other =>
        obtain rfl : other = host := of_decide_eq_true hm
        have hcircuit : (after policy start (.success other :: past)).circuits.get? other = none :=
          get?_success hne
        rw [hcircuit]
        exact failures_of_resets (.inl rfl)
    | failure other =>
        obtain rfl : other = host := of_decide_eq_true hm
        have hcircuit : (after policy start (.failure other :: past)).circuits.get? other = _ :=
          get?_failure hne
        rw [hcircuit, failures_failure, lastFailure?_failure, ← now_after policy]
        refine ⟨Nat.succ_pos _, ?_, rfl⟩
        dsimp only
        rw [failureCount_of_agrees h]
        omega
    | advance d =>
        have hm : Move.advance d ≠ .failure host := Move.noConfusion
        rw [lastFailure?_of_ne hm, failures_of_not_resets (by simp [Resets]) hm]
        exact h
  · rw [Bool.not_eq_true] at hm
    obtain ⟨hkept, hother⟩ := not_resets_of_not_concerns policy start past
      (failures policy start host past) hm
    obtain ⟨-, hcircuit⟩ := move_of_not_concerns policy (after policy start past) hm
    rw [lastFailure?_of_ne hother, failures_of_not_resets hkept hother, after, hcircuit]
    exact h

theorem agrees_after (start : Span) (hne : host ≠ "") (hpos : 0 < policy.threshold)
    (hmost : policy.threshold ≤ Circuit.mostFailures) (past : List Move) :
    Agrees (failures policy start host past) (lastFailure? start host past)
      ((after policy start past).circuits.get? host) := by
  induction past with
  | nil => rfl
  | cons m past ih => exact agrees_move hne hpos hmost m ih

/-! ## What the circuits answer -/

/-- Only what concerns a host matters to its circuit. -/
theorem after_filter_concerns (policy : CircuitPolicy) (start : Span) (host : String)
    (past : List Move) :
    (after policy start (past.filter (·.concerns host))).now = (after policy start past).now ∧
      (after policy start (past.filter (·.concerns host))).circuits.get? host
        = (after policy start past).circuits.get? host := by
  induction past with
  | nil => exact ⟨rfl, rfl⟩
  | cons m past ih =>
      by_cases hm : m.concerns host = true
      · rw [List.filter_cons_of_pos hm]
        exact move_congr policy m ih.1 ih.2
      · rw [List.filter_cons_of_neg hm]
        obtain ⟨hnow, hcircuit⟩ :=
          move_of_not_concerns policy (after policy start past) (Bool.not_eq_true _ ▸ hm)
        exact ⟨ih.1.trans hnow.symm, ih.2.trans hcircuit.symm⟩

/-- The empty host never has a circuit. -/
theorem get?_empty_after (policy : CircuitPolicy) (start : Span) (past : List Move) :
    (after policy start past).circuits.get? "" = none := by
  induction past with
  | nil => rfl
  | cons m past ih =>
      by_cases hm : m.concerns "" = true
      · cases m with
        | allow other =>
            obtain rfl : other = "" := of_decide_eq_true hm
            exact ih
        | success other =>
            obtain rfl : other = "" := of_decide_eq_true hm
            exact ih
        | failure other =>
            obtain rfl : other = "" := of_decide_eq_true hm
            exact ih
        | advance d => exact ih
      · rw [after, (move_of_not_concerns policy _ (Bool.not_eq_true _ ▸ hm)).2]
        exact ih

/-- A host is denied while its circuit has as many failures as the threshold and the cooldown has
    not passed since the last one. -/
theorem denied_iff (hne : host ≠ "") (hpos : 0 < policy.threshold)
    (hmost : policy.threshold ≤ Circuit.mostFailures) :
    ((after policy start past).circuits.allow policy (after policy start past).now host).1 = false ↔
      policy.threshold ≤ failures policy start host past ∧
        ∃ n ∈ sinceFailure? start host past, n < policy.cooldown.nanos := by
  have hagrees := agrees_after start hne hpos hmost past
  cases hc : (after policy start past).circuits.get? host with
  | none =>
      rw [hc] at hagrees
      have hzero : failures policy start host past = 0 := hagrees
      rw [allow_of_none hc, hzero]
      simp [Nat.not_le.2 hpos]
  | some c =>
      rw [hc] at hagrees
      obtain ⟨-, hfailures, hlast⟩ := hagrees
      have hreached : policy.threshold ≤ failures policy start host past
          ↔ policy.threshold ≤ c.failures := by
        rw [hfailures, Nat.le_min]
        simp [hmost]
      rw [allow_of_some _ _ hne hc, now_after, hreached, sinceFailure?, hlast]
      by_cases hbelow : c.failures < policy.threshold
      · simp [hbelow, Nat.not_le.2 hbelow]
      · simp [hbelow, Nat.not_lt.1 hbelow, apply_ite Prod.fst]

/-- The circuits refine the histories of their hosts, whatever the settings and whatever has
    happened. The count of a host is the number of its failures since its latest reset, as far as
    numbers go; it is denied just while they are as many as the threshold and less than the cooldown
    has passed since the last failure, which changes nothing; what happens to other hosts does not
    matter. The empty host is never denied and has no failures. -/
theorem after_refines (threshold : UInt32) (cooldown start : Span) (past : List Move) :
    let policy := CircuitPolicy.ofSettings threshold.toNat cooldown
    let b := after policy start past
    (∀ host, host ≠ "" →
      b.circuits.failureCount host = min (UInt32.size - 1) (failures policy start host past) ∧
      ((b.circuits.allow policy b.now host).1 = false ↔
        policy.threshold ≤ failures policy start host past ∧
          ∃ n ∈ sinceFailure? start host past, n < policy.cooldown.nanos) ∧
      ((b.circuits.allow policy b.now host).1 = false → b.move policy (.allow host) = b) ∧
      ∀ other, past.filter (·.concerns host) = other.filter (·.concerns host) →
        b.circuits.failureCount host = (after policy start other).circuits.failureCount host ∧
        (b.circuits.allow policy b.now host).1
          = ((after policy start other).circuits.allow policy (after policy start other).now host).1) ∧
    b.circuits.failureCount "" = 0 ∧ (b.circuits.allow policy b.now "").1 = true := by
  intro policy b
  have hpos : 0 < policy.threshold := CircuitPolicy.threshold_pos ..
  have hmost : policy.threshold ≤ Circuit.mostFailures :=
    CircuitPolicy.threshold_le_mostFailures ..
  refine ⟨fun host hne => ⟨?_, denied_iff hne hpos hmost, ?_, fun other hsame => ?_⟩, ?_,
    congrArg Prod.fst allow_empty⟩
  · exact (failureCount_of_agrees (agrees_after start hne hpos hmost past)).trans (Nat.min_comm ..)
  · intro hdenied
    exact congrArg (Timed.mk b.now) (allow_eq_of_denied hdenied)
  · obtain ⟨hnow, hcircuit⟩ := after_filter_concerns policy start host past
    obtain ⟨hnow', hcircuit'⟩ := after_filter_concerns policy start host other
    rw [hsame] at hnow hcircuit
    have hsame : b.circuits.get? host = (after policy start other).circuits.get? host :=
      hcircuit.symm.trans hcircuit'
    have hclock : b.now = (after policy start other).now := hnow.symm.trans hnow'
    rw [hclock]
    exact ⟨failureCount_congr hsame, (allow_congr policy _ hsame).1⟩
  · rw [failureCount, get?_empty_after]

/-- A host that has failed three times is denied for thirty seconds, with the standard settings. -/
theorem after_refines_standard :
    "a.com" ≠ "" ∧
      ((after .standard .zero [.advance (.ofSeconds 29), .failure "a.com", .success "b.com",
        .failure "a.com", .allow "a.com", .failure "a.com"]).circuits.allow .standard
          (.ofSeconds 29) "a.com").1 = false ∧
      failures .standard .zero "a.com" [.allow "a.com", .advance (.ofSeconds 30), .failure "a.com",
        .failure "a.com", .failure "a.com"] = 0 := by
  have hne : "a.com" ≠ "" := by decide
  refine ⟨hne, ?_, by decide⟩
  have h := (after_refines 0 .zero .zero [.advance (.ofSeconds 29), .failure "a.com",
    .success "b.com", .failure "a.com", .allow "a.com", .failure "a.com"]).1 "a.com" hne
  refine h.2.1.2 ⟨by decide, 29000000000, by decide, by decide⟩

end Reachability.Circuits
