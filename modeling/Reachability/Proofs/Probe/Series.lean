import Mathlib.Data.List.Basic
import Mathlib.Data.List.Flatten
import Mathlib.Data.List.Induction
import Reachability.Proofs.Probe.Stages
import Reachability.Proofs.Probe.Target

set_option autoImplicit false

/-! # A failing host is left alone

Probes of one host that follow each other share its circuit. While all requests to the host fail, at
most two requests more than the threshold go out between two resets of its circuit: the probe that
comes to the threshold may still have two attempts left. A reset comes no earlier than a cooldown
after the last failure before it, so requests that lie closer together have no reset between them.
-/

namespace Reachability.Probe

/-! ## Turns and resets -/

namespace Act

/-- What the clock of the circuits shows in a turn. -/
def reading (a : Act) : Span := a.before.clock.reading a.time

/-- Whether a turn resets the circuit of a host. -/
def resets (host : String) (a : Act) : Bool :=
  (a.before.circuits.get? host).isSome && (a.after.circuits.get? host).isNone

/-- All requests made in a turn come to nothing. -/
def Fails (network : Network) (deadline : Nat) (a : Act) : Prop :=
  ∀ call ∈ a.calls,
    ¬ AnswersWell network deadline (a.before.traffic.callsTo call.host) call

end Act

/-- The requests since the latest turn that reset the circuit of a host, that turn's included. -/
def sinceReset (host : String) (acts : List Act) : List Call :=
  acts.foldl (fun calls a => if a.resets host then a.calls else calls ++ a.calls) []

/-- Probes of one host, one after the other, from a time at which the host had no circuit: the turns
    that they have had, and whether one of them is under way. Each has its own link, network and
    deadline, and its requests fail; between two of them anything may happen to other hosts. -/
inductive Series (policy : CircuitPolicy) (host : String) : List Act → Nat → Scene → Bool → Prop
  | start {now : Nat} {scene : Scene} (closed : scene.circuits.get? host = none) :
      Series policy host [] now scene false
  | between {acts : List Act} {now later : Nat} {scene scene' : Scene}
      (series : Series policy host acts now scene false) (spares : Spares host scene scene')
      (le : now ≤ later) : Series policy host acts later scene' false
  | probe {acts more : List Act} {now later deadline : Nat} {scene scene' : Scene} {link : String}
      {target : Target} {network : Network} {stage : Stage}
      (series : Series policy host acts now scene false)
      (aims : target? link = some target) (host_eq : target.host = host)
      (course : Course ⟨network, policy⟩ deadline link now scene more later scene' stage)
      (fails : ∀ a ∈ more, a.Fails network deadline) :
      Series policy host (acts ++ more) later scene' stage.status?.isNone

variable {policy : CircuitPolicy} {host : String} {acts older recent : List Act} {a : Act}

theorem sinceReset_append (host : String) (acts : List Act) (a : Act) :
    sinceReset host (acts ++ [a])
      = if a.resets host then a.calls else sinceReset host acts ++ a.calls := by
  rw [sinceReset, List.foldl_append]
  rfl

/-- As long as there is no reset, all requests are since the latest one. -/
theorem length_callsOf_le (older : List Act) (a : Act) (recent : List Act)
    (h : ∀ b ∈ recent, b.resets host = false) :
    (callsOf (a :: recent)).length ≤ (sinceReset host (older ++ a :: recent)).length := by
  induction recent using List.reverseRecOn with
  | nil =>
      rw [sinceReset_append, callsOf_singleton]
      split
      · exact Nat.le_refl _
      · rw [List.length_append]
        exact Nat.le_add_left ..
  | append_singleton recent b ih =>
      have hb : b.resets host = false := h b (by simp)
      have hrecent := ih fun b' hb' => h b' (by simp [hb'])
      rw [← List.cons_append, callsOf_append, callsOf_singleton, ← List.append_assoc,
        sinceReset_append, if_neg (by simp [hb]), List.length_append, List.length_append]
      exact Nat.add_le_add_right hrecent _

/-! ## What is known of the circuit -/

/-- The failures since the latest reset are recorded, and when the last of them was. -/
structure Counted (host : String) (acts : List Act) (n : Nat) (scene : Scene) : Prop where
  of_none : scene.circuits.get? host = none → n = 0
  of_some : ∀ c, scene.circuits.get? host = some c →
    0 < n ∧ c.failures = min n Circuit.mostFailures ∧
      ∃ b ∈ acts, b.reading = c.last ∧ b.after.circuits.get? host = some c

/-- No request is under way: all have failed, the last of them no earlier than any was made. -/
structure Settled (host : String) (acts : List Act) (n : Nat) (scene : Scene) : Prop
    extends Counted host acts n scene where
  heard : ∀ c, scene.circuits.get? host = some c →
    ∀ b ∈ acts, b.calls ≠ [] → b.reading.nanos ≤ c.last.nanos

/-- What a turn keeps to after others: it makes requests to the host only, and not too many since
    the latest reset; and if it resets the circuit itself, then a cooldown after the last failure,
    which came after all requests before. -/
structure Paced (policy : CircuitPolicy) (host : String) (older : List Act) (a : Act) : Prop where
  toHost : ∀ call ∈ a.calls, call.host = host
  few : (sinceReset host (older ++ [a])).length ≤ policy.threshold + 2
  rested : ∀ c, a.before.circuits.get? host = some c → a.after.circuits.get? host = none →
    c.last.nanos + policy.cooldown.nanos ≤ a.reading.nanos ∧
      (∀ b ∈ older, b.calls ≠ [] → b.reading.nanos ≤ c.last.nanos) ∧
      ∃ b ∈ older, b.reading = c.last ∧ b.after.circuits.get? host = some c

/-- A request that is bound to fail. -/
def Hopeless (deadline : Nat) (outcome : Except RequestError Nat) (finish : Option Nat) : Prop :=
  ∀ status t, outcome = .ok status → 200 ≤ status → status < 400 → finish = some t → deadline < t

/-- What is known of a probe at each stage, with the requests since the latest reset: the attempts
    that are left fit in. -/
def Stage.Pressed (policy : CircuitPolicy) (host : String) (deadline : Nat) (acts : List Act)
    (now : Nat) (scene : Scene) : Stage → Prop
  | .fresh link => (∃ target, Probe.target? link = some target ∧ target.host = host) ∧
      Settled host acts (sinceReset host acts).length scene ∧
      (sinceReset host acts).length ≤ policy.threshold + 2
  | .lookingUp target _ _ => target.host = host ∧
      Settled host acts (sinceReset host acts).length scene ∧
      (sinceReset host acts).length ≤ policy.threshold + 2
  | .requesting target left outcome finish => target.host = host ∧ now ≤ deadline ∧ left ≠ [] ∧
      Hopeless deadline outcome finish ∧ ∃ n, (sinceReset host acts).length = n + 1 ∧
        Counted host acts n scene ∧ n + left.length ≤ policy.threshold + 2
  | .pausing target left _ => target.host = host ∧
      Settled host acts (sinceReset host acts).length scene ∧
      (sinceReset host acts).length + left.length ≤ policy.threshold + 2
  | .finished _ => Settled host acts (sinceReset host acts).length scene ∧
      (sinceReset host acts).length ≤ policy.threshold + 2

/-! ## One turn -/

section Turns

variable {now deadline : Nat} {before mid scene : Scene} {target : Target} {n : Nat}

theorem Counted.congr (h : Counted host acts n scene)
    (same : mid.circuits.get? host = scene.circuits.get? host) : Counted host acts n mid where
  of_none hnone := h.of_none (same ▸ hnone)
  of_some c hc := h.of_some c (same ▸ hc)

theorem Counted.append (h : Counted host acts n scene) (a : Act) :
    Counted host (acts ++ [a]) n scene where
  of_none := h.of_none
  of_some c hc := by
    obtain ⟨hpos, hfailures, b, hb, hlast⟩ := h.of_some c hc
    exact ⟨hpos, hfailures, b, List.mem_append_left _ hb, hlast⟩

theorem Settled.congr (h : Settled host acts n scene)
    (same : mid.circuits.get? host = scene.circuits.get? host) : Settled host acts n mid where
  toCounted := h.toCounted.congr same
  heard c hc := h.heard c (same ▸ hc)

/-- A turn without a request. -/
theorem Settled.append (h : Settled host acts n scene) (silent : a.calls = []) :
    Settled host (acts ++ [a]) n scene where
  toCounted := h.toCounted.append a
  heard c hc b hb hcalls := by
    rcases List.mem_append.1 hb with hb | hb
    · exact h.heard c hc b hb hcalls
    · rw [List.mem_singleton.1 hb, silent] at hcalls
      exact absurd rfl hcalls

/-- A turn that leaves the circuit as it is. -/
theorem sinceReset_kept (circuit : a.after.circuits.get? host = a.before.circuits.get? host) :
    sinceReset host (acts ++ [a]) = sinceReset host acts ++ a.calls := by
  have hkept : a.resets host = false := by
    rw [Act.resets, circuit]
    cases a.before.circuits.get? host <;> rfl
  rw [sinceReset_append, if_neg (by simp [hkept])]

/-- A turn that neither makes a request nor changes the circuit. -/
theorem quiet (acts : List Act) (a : Act) (calls : a.after.traffic.calls = a.before.traffic.calls)
    (circuit : a.after.circuits.get? host = a.before.circuits.get? host) :
    a.calls = [] ∧ sinceReset host (acts ++ [a]) = sinceReset host acts := by
  have hcalls : a.calls = [] := by rw [Act.calls, calls, added_self]
  exact ⟨hcalls, by rw [sinceReset_kept circuit, hcalls, List.append_nil]⟩

theorem Paced.of_quiet (calls : a.after.traffic.calls = a.before.traffic.calls)
    (circuit : a.after.circuits.get? host = a.before.circuits.get? host)
    (few : (sinceReset host acts).length ≤ policy.threshold + 2) : Paced policy host acts a := by
  obtain ⟨hcalls, hsame⟩ := quiet acts a calls circuit
  refine ⟨by simp [hcalls], hsame ▸ few, fun c hc hnone => ?_⟩
  rw [circuit, hc] at hnone
  cases hnone

/-- An attempt that follows `n` requests since the latest reset, in a turn that is at `mid`. -/
theorem pressed_attempt {s : Setting} {left : List Span} (before mid : Scene)
    (host_eq : target.host = host) (traffic : mid.traffic = before.traffic)
    (settled : Settled host acts n mid)
    (since : ∀ after : Scene, after.circuits = mid.circuits →
      (sinceReset host (acts ++ [⟨now, before, after⟩])).length
        = n + (Act.calls ⟨now, before, after⟩).length)
    (room : n + left.length ≤ s.policy.threshold + 2)
    (fails : Act.Fails s.network deadline
      ⟨now, before, (attempt s now deadline target left mid).1⟩) :
    (∀ call ∈ Act.calls ⟨now, before, (attempt s now deadline target left mid).1⟩,
      call.host = host) ∧
    (sinceReset host (acts ++ [⟨now, before, (attempt s now deadline target left mid).1⟩])).length
      ≤ s.policy.threshold + 2 ∧
    (attempt s now deadline target left mid).2.Pressed s.policy host deadline
      (acts ++ [⟨now, before, (attempt s now deadline target left mid).1⟩]) now
      (attempt s now deadline target left mid).1 := by
  subst host_eq
  unfold attempt at fails ⊢
  split at fails
  · next hstop =>
    have hcalls : Act.calls ⟨now, before, mid⟩ = [] := by rw [Act.calls, traffic, added_self]
    have hsince := since mid rfl
    rw [hcalls, List.length_nil, Nat.add_zero] at hsince
    rw [if_pos hstop]
    dsimp only [Stage.failed, Stage.Pressed]
    rw [hcalls, hsince]
    exact ⟨List.forall_mem_nil _, by omega, settled.append hcalls, by omega⟩
  · next hgo =>
    rw [if_neg hgo]
    rw [not_or, Nat.not_le] at hgo
    have hcalls : Act.calls ⟨now, before,
        { mid with traffic := mid.traffic.addCall ⟨now, target.host, target.url⟩ }⟩
        = [⟨now, target.host, target.url⟩] := by
      rw [Act.calls, ← traffic]
      exact added_cons ..
    have hsince := since
      { mid with traffic := mid.traffic.addCall ⟨now, target.host, target.url⟩ } rfl
    have hleft : 0 < left.length := List.length_pos_iff.2 hgo.2
    rw [hcalls, List.length_singleton] at hsince
    have hbad := fails ⟨now, target.host, target.url⟩
      (hcalls.symm ▸ List.mem_singleton_self _)
    dsimp only [Stage.Pressed]
    rw [hcalls, hsince]
    refine ⟨by simp, by omega, rfl, Nat.le_of_lt hgo.1, hgo.2, ?_, n, rfl,
      (settled.toCounted.append _).congr rfl, room⟩
    intro status t hok hlow hhigh hfinish
    rw [traffic] at hok hfinish
    exact Nat.not_le.1 fun hle => hbad ⟨status, t, hok, hlow, hhigh, hfinish, hle⟩

/-- A request has failed, and that is recorded. -/
theorem Settled.fail {after : Scene} (hne : host ≠ "") (counted : Counted host acts n before)
    (earlier : ∀ b ∈ acts, b.reading.nanos ≤ (before.clock.reading now).nanos)
    (calls : after.traffic.calls = before.traffic.calls)
    (circuits : after.circuits = before.circuits.failure (before.clock.reading now) host) :
    Act.calls ⟨now, before, after⟩ = [] ∧ Act.resets host ⟨now, before, after⟩ = false ∧
      Settled host (acts ++ [⟨now, before, after⟩]) (n + 1) after := by
  have hcalls : Act.calls ⟨now, before, after⟩ = [] := by rw [Act.calls, calls, added_self]
  have hcircuit : after.circuits.get? host
      = some ⟨min (n + 1) Circuit.mostFailures, before.clock.reading now⟩ := by
    rw [circuits, Circuits.get?_failure hne, Circuits.failureCount]
    cases hc : before.circuits.get? host with
    | none => rw [counted.of_none hc]
    | some c =>
        have hfailures := (counted.of_some c hc).2.1
        dsimp only
        rw [hfailures, show min (min n Circuit.mostFailures + 1) Circuit.mostFailures
          = min (n + 1) Circuit.mostFailures by omega]
  refine ⟨hcalls, by simp [Act.resets, hcircuit], ⟨⟨?_, ?_⟩, ?_⟩⟩
  · intro hnone
    rw [hcircuit] at hnone
    cases hnone
  · intro c hc
    rw [hcircuit] at hc
    cases hc
    exact ⟨Nat.succ_pos _, rfl, _, List.mem_append_right _ (List.mem_singleton_self _), rfl,
      hcircuit⟩
  · intro c hc b hb hcalled
    rw [hcircuit] at hc
    cases hc
    rcases List.mem_append.1 hb with hb | hb
    · exact earlier b hb
    · rw [List.mem_singleton.1 hb, hcalls] at hcalled
      exact absurd rfl hcalled

theorem length_pauses : pauses.length = 3 := rfl

theorem gate_of_allowed {s : Setting} {cs : Circuits}
    (h : before.circuits.allow s.policy (before.clock.reading now) target.host = (true, cs)) :
    gate s now deadline target before
      = attempt s now deadline target pauses { before with circuits := cs } := by
  unfold gate
  rw [h]
  rfl

theorem gate_of_denied {s : Setting} {cs : Circuits}
    (h : before.circuits.allow s.policy (before.clock.reading now) target.host = (false, cs)) :
    gate s now deadline target before = ({ before with circuits := cs }, .failed) := by
  unfold gate
  rw [h]
  rfl

theorem circuits_attempt (s : Setting) (now deadline : Nat) (target : Target) (left : List Span)
    (scene : Scene) :
    (attempt s now deadline target left scene).1.circuits = scene.circuits := by
  unfold attempt
  split <;> rfl

/-- An attempt in a turn that leaves the circuit as it is. -/
theorem pressed_attempt_kept {s : Setting} {left : List Span} (host_eq : target.host = host)
    (settled : Settled host acts (sinceReset host acts).length before)
    (room : (sinceReset host acts).length + left.length ≤ s.policy.threshold + 2)
    (fails : Act.Fails s.network deadline
      ⟨now, before, (attempt s now deadline target left before).1⟩) :
    Paced s.policy host acts ⟨now, before, (attempt s now deadline target left before).1⟩ ∧
      (attempt s now deadline target left before).2.Pressed s.policy host deadline
        (acts ++ [⟨now, before, (attempt s now deadline target left before).1⟩]) now
        (attempt s now deadline target left before).1 := by
  have hcircuits := circuits_attempt s now deadline target left before
  obtain ⟨htoHost, hfew, hstage⟩ := pressed_attempt before before host_eq rfl settled
    (fun after hafter => by rw [sinceReset_kept (by rw [hafter]), List.length_append]) room fails
  refine ⟨⟨htoHost, hfew, fun c hc hnone => ?_⟩, hstage⟩
  dsimp only at hc hnone
  rw [hcircuits, hc] at hnone
  cases hnone

/-- The circuit has cooled down and is reset. -/
theorem pressed_gate_reset {s : Setting} {c : Circuit} (host_eq : target.host = host)
    (hpos : 0 < s.policy.threshold)
    (settled : Settled host acts (sinceReset host acts).length before)
    (hc : before.circuits.get? host = some c)
    (cooled : s.policy.cooldown.nanos ≤ ((before.clock.reading now).sub c.last).nanos)
    (last_le : c.last.nanos ≤ (before.clock.reading now).nanos)
    (fails : Act.Fails s.network deadline ⟨now, before, (attempt s now deadline target
      pauses { before with circuits := before.circuits.erase host }).1⟩) :
    Paced s.policy host acts ⟨now, before, (attempt s now deadline target pauses
        { before with circuits := before.circuits.erase host }).1⟩ ∧
      (attempt s now deadline target pauses
        { before with circuits := before.circuits.erase host }).2.Pressed s.policy host deadline
        (acts ++ [⟨now, before, (attempt s now deadline target pauses
          { before with circuits := before.circuits.erase host }).1⟩]) now
        (attempt s now deadline target pauses
          { before with circuits := before.circuits.erase host }).1 := by
  have herased : (before.circuits.erase host).get? host = none := by simp
  have hgone : ∀ c, (before.circuits.erase host).get? host ≠ some c := by
    intro c hc
    rw [herased] at hc
    cases hc
  have hnone : Settled host acts 0 { before with circuits := before.circuits.erase host } :=
    ⟨⟨fun _ => rfl, fun c hc => absurd hc (hgone c)⟩, fun c hc => absurd hc (hgone c)⟩
  have hroom : 0 + pauses.length ≤ s.policy.threshold + 2 := by
    rw [length_pauses]
    omega
  have hsince : ∀ after : Scene, after.circuits = before.circuits.erase host →
      (sinceReset host (acts ++ [⟨now, before, after⟩])).length
        = 0 + (Act.calls ⟨now, before, after⟩).length := by
    intro after hafter
    have hreset : Act.resets host ⟨now, before, after⟩ = true := by
      rw [Act.resets, hc, hafter, herased]
      rfl
    rw [sinceReset_append, if_pos hreset, Nat.zero_add]
  obtain ⟨htoHost, hfew, hstage⟩ := pressed_attempt before
    { before with circuits := before.circuits.erase host } host_eq rfl hnone hsince hroom fails
  refine ⟨⟨htoHost, hfew, fun c' hc' _ => ?_⟩, hstage⟩
  obtain rfl : c = c' := Option.some.inj (hc.symm.trans hc')
  obtain ⟨-, -, b, hb, hlast, hleft⟩ := settled.of_some c hc
  refine ⟨?_, settled.heard c hc, b, hb, hlast, hleft⟩
  rw [Span.sub, Span.nanos_ofNanos] at cooled
  show c.last.nanos + _ ≤ (before.clock.reading now).nanos
  omega

/-- The circuit is asked, and then the target. -/
theorem pressed_gate {s : Setting} (host_eq : target.host = host) (hne : host ≠ "")
    (hpos : 0 < s.policy.threshold) (hmost : s.policy.threshold ≤ Circuit.mostFailures)
    (settled : Settled host acts (sinceReset host acts).length before)
    (few : (sinceReset host acts).length ≤ s.policy.threshold + 2)
    (earlier : ∀ b ∈ acts, b.reading.nanos ≤ (before.clock.reading now).nanos)
    (fails : Act.Fails s.network deadline
      ⟨now, before, (gate s now deadline target before).1⟩) :
    Paced s.policy host acts ⟨now, before, (gate s now deadline target before).1⟩ ∧
      (gate s now deadline target before).2.Pressed s.policy host deadline
        (acts ++ [⟨now, before, (gate s now deadline target before).1⟩]) now
        (gate s now deadline target before).1 := by
  subst host_eq
  have hkept : ∀ h : before.circuits.allow s.policy (before.clock.reading now) target.host
      = (true, before.circuits),
      gate s now deadline target before
        = attempt s now deadline target pauses before := fun h => gate_of_allowed h
  cases hc : before.circuits.get? target.host with
  | none =>
      have hzero := settled.of_none hc
      rw [hkept (Circuits.allow_of_none hc)] at fails ⊢
      exact pressed_attempt_kept rfl settled (by rw [length_pauses]; omega) fails
  | some c =>
      obtain ⟨hcount, hfailures, b, hb, hlast, -⟩ := settled.of_some c hc
      have hallow := Circuits.allow_of_some s.policy (before.clock.reading now) hne hc
      by_cases hbelow : c.failures < s.policy.threshold
      · rw [if_pos hbelow] at hallow
        rw [hkept hallow] at fails ⊢
        exact pressed_attempt_kept rfl settled (by rw [length_pauses]; omega) fails
      · rw [if_neg hbelow] at hallow
        by_cases hwithin : ((before.clock.reading now).sub c.last).nanos < s.policy.cooldown.nanos
        · rw [if_pos hwithin] at hallow
          rw [gate_of_denied hallow]
          obtain ⟨hcalls, hsame⟩ := quiet acts ⟨now, before, before⟩ rfl rfl
          refine ⟨.of_quiet rfl rfl few, ?_⟩
          dsimp only [Stage.failed, Stage.Pressed]
          rw [hsame]
          exact ⟨settled.append hcalls, few⟩
        · rw [if_neg hwithin] at hallow
          rw [gate_of_allowed hallow] at fails ⊢
          exact pressed_gate_reset rfl hpos settled hc (Nat.not_lt.1 hwithin)
            (hlast ▸ earlier b hb) fails

/-- A turn in which nothing is asked. -/
theorem pressed_quiet (now : Nat) (after : Scene)
    (settled : Settled host acts (sinceReset host acts).length before)
    (few : (sinceReset host acts).length ≤ policy.threshold + 2)
    (calls : after.traffic.calls = before.traffic.calls)
    (circuit : after.circuits.get? host = before.circuits.get? host) :
    Paced policy host acts ⟨now, before, after⟩ ∧
      Settled host (acts ++ [⟨now, before, after⟩])
        (sinceReset host (acts ++ [⟨now, before, after⟩])).length after ∧
      (sinceReset host (acts ++ [⟨now, before, after⟩])).length ≤ policy.threshold + 2 := by
  obtain ⟨hcalls, hsame⟩ := quiet acts ⟨now, before, after⟩ calls circuit
  rw [hsame]
  exact ⟨.of_quiet calls circuit few, (settled.append hcalls).congr circuit, few⟩

/-- A turn in which a failure is recorded. -/
theorem pressed_fail (after : Scene) (hne : host ≠ "") (counted : Counted host acts n before)
    (since : (sinceReset host acts).length = n + 1) (few : n + 1 ≤ policy.threshold + 2)
    (earlier : ∀ b ∈ acts, b.reading.nanos ≤ (before.clock.reading now).nanos)
    (calls : after.traffic.calls = before.traffic.calls)
    (circuits : after.circuits = before.circuits.failure (before.clock.reading now) host) :
    Paced policy host acts ⟨now, before, after⟩ ∧
      Settled host (acts ++ [⟨now, before, after⟩])
        (sinceReset host (acts ++ [⟨now, before, after⟩])).length after ∧
      (sinceReset host (acts ++ [⟨now, before, after⟩])).length = n + 1 := by
  obtain ⟨hcalls, hkept, hsettled⟩ := Settled.fail hne counted earlier calls circuits
  have hsince : (sinceReset host (acts ++ [⟨now, before, after⟩])).length = n + 1 := by
    rw [sinceReset_append, if_neg (by simp [hkept]), hcalls, List.append_nil, since]
  have hsome : after.circuits.get? host ≠ none := by
    rw [circuits, Circuits.get?_failure hne]
    exact nofun
  rw [hsince]
  exact ⟨⟨by simp [hcalls], hsince ▸ few, fun c _ hnone => absurd hnone hsome⟩, hsettled, rfl⟩

/-- After a failure there is a pause, or the end. -/
theorem pause_cases (now deadline : Nat) (target : Target) (left : List Span) (scene : Scene) :
    pause now deadline target left scene = (scene, .failed) ∨
      ∃ d rest finish, left = d :: rest ∧ pause now deadline target left scene
        = ({ scene with clock := (scene.clock.sleep d now).1 }, .pausing target rest finish) := by
  cases left with
  | nil => exact .inl rfl
  | cons d rest =>
      simp only [pause]
      split
      · exact .inl rfl
      · exact .inr ⟨d, rest, _, rfl, rfl⟩

/-- A request that is bound to fail is over. -/
theorem pressed_conclude {left : List Span} {outcome : Except RequestError Nat}
    {finish : Option Nat} (hne : host ≠ "")
    (pressed : Stage.Pressed policy host deadline acts now before
      (.requesting target left outcome finish))
    (come : hasCome finish now = true)
    (earlier : ∀ b ∈ acts, b.reading.nanos ≤ (before.clock.reading now).nanos) :
    Paced policy host acts ⟨now, before, (conclude now deadline target left outcome before).1⟩ ∧
      (conclude now deadline target left outcome before).2.Pressed policy host deadline
        (acts ++ [⟨now, before, (conclude now deadline target left outcome before).1⟩]) now
        (conclude now deadline target left outcome before).1 := by
  obtain ⟨rfl, hnow, hleft, hopeless, n, hsince, hcounted, hroom⟩ := pressed
  have hlength : 0 < left.length := List.length_pos_iff.2 hleft
  have hpause : conclude now deadline target left outcome before
      = pause now deadline target left
          (fail now target { before with traffic := before.traffic.answered }) := by
    unfold conclude
    cases outcome with
    | error e => rfl
    | ok status =>
        obtain ⟨t, ht, hle⟩ := hasCome_iff.1 come
        refine if_neg fun hgood => ?_
        obtain ⟨hlow, hhigh⟩ := isSuccess_iff.1 hgood
        have hlate := hopeless status t rfl hlow hhigh ht
        omega
  rw [hpause]
  rcases pause_cases now deadline target left
    (fail now target { before with traffic := before.traffic.answered }) with
    hend | ⟨d, rest, finish', rfl, hrests⟩
  · rw [hend]
    obtain ⟨hpaced, hsettled, hsame⟩ := pressed_fail
      (fail now target { before with traffic := before.traffic.answered }) hne hcounted hsince
      (show n + 1 ≤ policy.threshold + 2 by omega) earlier rfl rfl
    exact ⟨hpaced, hsettled, Nat.le_trans (Nat.le_of_eq hsame) (by omega)⟩
  · rw [hrests]
    rw [List.length_cons] at hroom
    obtain ⟨hpaced, hsettled, hsame⟩ := pressed_fail
      { fail now target { before with traffic := before.traffic.answered } with
        clock := (before.clock.sleep d now).1 } hne hcounted hsince
      (show n + 1 ≤ policy.threshold + 2 by omega) earlier rfl rfl
    refine ⟨hpaced, rfl, hsettled, ?_⟩
    exact Nat.le_trans (Nat.add_le_add_right (Nat.le_of_eq hsame) _) (by omega)

/-- A turn of a probe whose requests fail. -/
theorem pressed_step {s : Setting} {stage : Stage} (hne : host ≠ "")
    (hpos : 0 < s.policy.threshold) (hmost : s.policy.threshold ≤ Circuit.mostFailures)
    (pressed : stage.Pressed s.policy host deadline acts now before)
    (going : stage.status? = none)
    (earlier : ∀ b ∈ acts, b.reading.nanos ≤ (before.clock.reading now).nanos)
    (fails : Act.Fails s.network deadline ⟨now, before, (step s now deadline before stage).1⟩) :
    Paced s.policy host acts ⟨now, before, (step s now deadline before stage).1⟩ ∧
      (step s now deadline before stage).2.Pressed s.policy host deadline
        (acts ++ [⟨now, before, (step s now deadline before stage).1⟩]) now
        (step s now deadline before stage).1 := by
  cases stage with
  | fresh link =>
      obtain ⟨⟨target, hlink, hhost⟩, hsettled, hfew⟩ := pressed
      simp only [step] at fails ⊢
      rcases begin_cases s now deadline before link with
        hend | ⟨url, hurl, -, hgo⟩ | ⟨url, name, hurl, -, hask⟩
      · rw [hend]
        exact pressed_quiet _ _ hsettled hfew rfl rfl
      · rw [hgo] at fails ⊢
        obtain rfl : target = .ofUrl url := by
          rw [Probe.target?, hurl] at hlink
          exact (Option.some.inj hlink).symm
        exact pressed_gate hhost hne hpos hmost hsettled hfew earlier fails
      · rw [hask]
        obtain rfl : target = .ofUrl url := by
          rw [Probe.target?, hurl] at hlink
          exact (Option.some.inj hlink).symm
        obtain ⟨hpaced, hnext⟩ := pressed_quiet now
          { before with traffic := before.traffic.addLookup name } hsettled hfew rfl rfl
        exact ⟨hpaced, hhost, hnext⟩
  | lookingUp target answer finish =>
      obtain ⟨hhost, hsettled, hfew⟩ := pressed
      simp only [step] at fails ⊢
      split at fails
      · next hgo =>
        rw [if_pos hgo]
        exact pressed_gate hhost hne hpos hmost hsettled hfew earlier fails
      · next hend =>
        rw [if_neg hend]
        exact pressed_quiet _ _ hsettled hfew rfl rfl
  | requesting target left outcome finish =>
      simp only [step]
      split
      · next hcome => exact pressed_conclude hne pressed hcome earlier
      · obtain ⟨rfl, hnow, hleft, -, n, hsince, hcounted, hroom⟩ := pressed
        have hlength : 0 < left.length := List.length_pos_iff.2 hleft
        obtain ⟨hpaced, hsettled, hsame⟩ := pressed_fail (fail now target before) hne hcounted
          hsince (show n + 1 ≤ s.policy.threshold + 2 by omega) earlier rfl rfl
        exact ⟨hpaced, hsettled, Nat.le_trans (Nat.le_of_eq hsame) (by omega)⟩
  | pausing target left finish =>
      obtain ⟨hhost, hsettled, hroom⟩ := pressed
      simp only [step] at fails ⊢
      split at fails
      · next hcome =>
        rw [if_pos hcome]
        exact pressed_attempt_kept hhost hsettled hroom fails
      · next hend =>
        rw [if_neg hend]
        exact pressed_quiet _ _ hsettled (by omega) rfl rfl
  | finished status => cases going

end Turns

/-! ## Whole series -/

/-- All turns keep to the pace. -/
def AllPaced (policy : CircuitPolicy) (host : String) (acts : List Act) : Prop :=
  ∀ older a newer, acts = older ++ a :: newer → Paced policy host older a

/-- The clock of the circuits does not go back. -/
def Steady (acts : List Act) : Prop :=
  acts.Pairwise fun a b => a.reading.nanos ≤ b.reading.nanos

theorem AllPaced.of_append {more : List Act} (h : AllPaced policy host (acts ++ more)) :
    AllPaced policy host acts := by
  rintro older b newer rfl
  exact h older b (newer ++ more) (by simp)

theorem AllPaced.append (h : AllPaced policy host acts) (paced : Paced policy host acts a) :
    AllPaced policy host (acts ++ [a]) := by
  intro older b newer heq
  rcases newer.eq_nil_or_concat with rfl | ⟨newer, last, rfl⟩
  · obtain ⟨rfl, hlast⟩ := List.append_inj' heq rfl
    exact List.singleton_inj.1 hlast ▸ paced
  · rw [List.concat_eq_append, ← List.cons_append, ← List.append_assoc] at heq
    exact h older b newer (List.append_inj' heq rfl).1

theorem Steady.of_append {more : List Act} (h : Steady (acts ++ more)) : Steady acts :=
  (List.pairwise_append.1 h).1

theorem Steady.le_last (h : Steady (acts ++ [a])) {b : Act} (hb : b ∈ acts) :
    b.reading.nanos ≤ a.reading.nanos :=
  (List.pairwise_append.1 h).2.2 b hb a (List.mem_singleton_self a)

section Series

variable {s : Setting} {now deadline start : Nat} {first scene scene' : Scene}
variable {link : String} {target : Target} {more : List Act} {stage : Stage}

theorem Stage.Pressed.spared (h : stage.Pressed policy host deadline acts now scene)
    (spares : Spares host scene scene') : stage.Pressed policy host deadline acts now scene' := by
  have hcircuit := spares.circuit
  cases stage with
  | fresh link => exact ⟨h.1, h.2.1.congr hcircuit, h.2.2⟩
  | lookingUp target answer finish => exact ⟨h.1, h.2.1.congr hcircuit, h.2.2⟩
  | requesting target left outcome finish =>
      obtain ⟨hhost, hnow, hleft, hopeless, n, hsince, hcounted, hroom⟩ := h
      exact ⟨hhost, hnow, hleft, hopeless, n, hsince, hcounted.congr hcircuit, hroom⟩
  | pausing target left finish => exact ⟨h.1, h.2.1.congr hcircuit, h.2.2⟩
  | finished status => exact ⟨h.1.congr hcircuit, h.2⟩

/-- Time passes only as far as the probe lets it. -/
theorem Stage.Pressed.later {later : Nat} {due : Option Nat}
    (h : stage.Pressed policy host deadline acts now scene)
    (waits : stage.wait now deadline = .change due) (inTime : ∀ t, due = some t → later ≤ t) :
    stage.Pressed policy host deadline acts later scene := by
  cases stage with
  | requesting target left outcome finish =>
      obtain ⟨hhost, -, hrest⟩ := h
      obtain ⟨-, t, hdue, -, ht, -⟩ := waitUntil_eq_change waits
      exact ⟨hhost, Nat.le_trans (inTime t hdue) ht, hrest⟩
  | _ => exact h

/-- A probe whose requests fail keeps to the pace, if those before it did. -/
theorem Course.pressed (course : Course s deadline link start first more now scene stage)
    (aims : target? link = some target) (host_eq : target.host = host)
    (hpos : 0 < s.policy.threshold) (hmost : s.policy.threshold ≤ Circuit.mostFailures)
    (settled : Settled host acts (sinceReset host acts).length first)
    (few : (sinceReset host acts).length ≤ s.policy.threshold + 2)
    (paced : AllPaced s.policy host acts) (fails : ∀ a ∈ more, a.Fails s.network deadline)
    (steady : Steady (acts ++ more)) :
    AllPaced s.policy host (acts ++ more) ∧
      stage.Pressed s.policy host deadline (acts ++ more) now scene := by
  induction course with
  | begin =>
      rw [List.append_nil]
      exact ⟨paced, ⟨target, aims, host_eq⟩, settled, few⟩
  | @act more now scene stage course going ready ih =>
      rw [← List.append_assoc] at steady ⊢
      obtain ⟨hpaced, hstage⟩ := ih (fun a ha => fails a (List.mem_append_left _ ha))
        steady.of_append
      have hfails := fails _ (List.mem_append_right _ (List.mem_singleton_self _))
      obtain ⟨hturn, hnext⟩ := pressed_step (host_eq ▸ host_ne_empty aims) hpos hmost hstage going
        (fun b hb => steady.le_last hb) hfails
      exact ⟨hpaced.append hturn, hnext⟩
  | other course spares ih =>
      obtain ⟨hpaced, hstage⟩ := ih fails steady
      exact ⟨hpaced, hstage.spared (host_eq ▸ spares target aims)⟩
  | time course waits le inTime ih =>
      obtain ⟨hpaced, hstage⟩ := ih fails steady
      exact ⟨hpaced, hstage.later waits inTime⟩

theorem Series.paced {busy : Bool} (series : Series policy host acts now scene busy)
    (hpos : 0 < policy.threshold) (hmost : policy.threshold ≤ Circuit.mostFailures)
    (steady : Steady acts) :
    AllPaced policy host acts ∧ (busy = false →
      Settled host acts (sinceReset host acts).length scene ∧
        (sinceReset host acts).length ≤ policy.threshold + 2) := by
  induction series with
  | start closed =>
      refine ⟨fun older a newer heq => ?_, fun _ => ⟨⟨⟨fun _ => rfl, ?_⟩, nofun⟩, Nat.zero_le _⟩⟩
      · simp at heq
      · intro c hc
        rw [closed] at hc
        cases hc
  | between series spares le ih =>
      obtain ⟨hpaced, hidle⟩ := ih steady
      obtain ⟨hsettled, hfew⟩ := hidle rfl
      exact ⟨hpaced, fun _ => ⟨hsettled.congr spares.circuit, hfew⟩⟩
  | @probe acts more now later deadline scene scene' link target network stage series aims host_eq
      course fails ih =>
      obtain ⟨hpaced, hidle⟩ := ih steady.of_append
      obtain ⟨hsettled, hfew⟩ := hidle rfl
      obtain ⟨hall, hstage⟩ :=
        course.pressed aims host_eq hpos hmost hsettled hfew hpaced fails steady
      refine ⟨hall, fun hbusy => ?_⟩
      cases stage with
      | finished status => exact hstage
      | _ => cases hbusy

end Series

/-! ## What a failing host sees -/

/-- How a host is left alone. -/
structure LeftAlone (policy : CircuitPolicy) (host : String) (acts : List Act) : Prop where
  /-- Only the host is asked. -/
  toHost : ∀ call ∈ callsOf acts, call.host = host
  /-- From one reset to the next, at most two requests more than the threshold go out. -/
  few : ∀ older a recent newer, acts = older ++ a :: recent ++ newer →
    (∀ b ∈ recent, b.resets host = false) →
      (callsOf (a :: recent)).length ≤ policy.threshold + 2
  /-- What goes out after a reset, goes out a cooldown after the last failure before it; and that
      came after all requests before the reset. -/
  rested : ∀ older a newer c, acts = older ++ a :: newer →
    a.before.circuits.get? host = some c → a.after.circuits.get? host = none →
      (∃ b ∈ older, b.reading = c.last ∧ b.after.circuits.get? host = some c) ∧
      (∀ b ∈ older, b.calls ≠ [] → b.reading.nanos ≤ c.last.nanos) ∧
      ∀ b ∈ a :: newer, c.last.nanos + policy.cooldown.nanos ≤ b.reading.nanos
  /-- There is no reset between requests that lie closer together than a cooldown. -/
  close : ∀ older a mid b newer, acts = older ++ a :: mid ++ b :: newer → a.calls ≠ [] →
    b.calls ≠ [] → b.reading.nanos < a.reading.nanos + policy.cooldown.nanos →
      ∀ r ∈ mid ++ [b], r.resets host = false
  /-- In any stretch of time shorter than a cooldown, at most two requests more than the threshold
      go out. -/
  within : ∀ low high, high < low + policy.cooldown.nanos →
    (callsOf (acts.filter fun a => low ≤ a.reading.nanos ∧ a.reading.nanos ≤ high)).length
      ≤ policy.threshold + 2

theorem AllPaced.few (h : AllPaced policy host acts) {newer : List Act}
    (heq : acts = older ++ a :: recent ++ newer) (kept : ∀ b ∈ recent, b.resets host = false) :
    (callsOf (a :: recent)).length ≤ policy.threshold + 2 := by
  refine Nat.le_trans (length_callsOf_le older a recent kept) ?_
  rcases (older ++ a :: recent).eq_nil_or_concat with hnil | ⟨before, b, hlast⟩
  · simp at hnil
  · rw [hlast, List.concat_eq_append]
    refine (h before b newer ?_).few
    rw [heq, hlast, List.concat_eq_append, List.append_assoc]
    rfl

/-- The turns since the latest reset, or since the beginning. -/
theorem exists_since (host : String) (acts : List Act) (a : Act) :
    ∃ older r recent, acts ++ [a] = older ++ r :: recent ∧ (older = [] ∨ r.resets host = true) ∧
      ∀ b ∈ recent, b.resets host = false := by
  induction acts using List.reverseRecOn generalizing a with
  | nil => exact ⟨[], a, [], rfl, .inl rfl, nofun⟩
  | append_singleton acts b ih =>
      by_cases ha : a.resets host = true
      · exact ⟨acts ++ [b], a, [], rfl, .inr ha, nofun⟩
      · obtain ⟨older, r, recent, heq, hr, hkept⟩ := ih b
        refine ⟨older, r, recent ++ [a], by simp [heq], hr, fun b' hb' => ?_⟩
        rcases List.mem_append.1 hb' with hb' | hb'
        · exact hkept b' hb'
        · rw [List.mem_singleton.1 hb']
          exact Bool.eq_false_iff.2 ha

theorem Act.of_resets (h : a.resets host = true) :
    ∃ c, a.before.circuits.get? host = some c ∧ a.after.circuits.get? host = none := by
  rw [Act.resets, Bool.and_eq_true, Option.isSome_iff_exists, Option.isNone_iff_eq_none] at h
  obtain ⟨⟨c, hc⟩, hnone⟩ := h
  exact ⟨c, hc, hnone⟩

theorem AllPaced.rested (h : AllPaced policy host acts) (steady : Steady acts) {c : Circuit}
    {newer : List Act} (heq : acts = older ++ a :: newer)
    (hc : a.before.circuits.get? host = some c) (hnone : a.after.circuits.get? host = none) :
    (∃ b ∈ older, b.reading = c.last ∧ b.after.circuits.get? host = some c) ∧
      (∀ b ∈ older, b.calls ≠ [] → b.reading.nanos ≤ c.last.nanos) ∧
      ∀ b ∈ a :: newer, c.last.nanos + policy.cooldown.nanos ≤ b.reading.nanos := by
  obtain ⟨hcooled, hheard, hleft⟩ := (h older a newer heq).rested c hc hnone
  refine ⟨hleft, hheard, fun b hb => ?_⟩
  rw [heq] at steady
  have hlater := List.pairwise_cons.1 (List.pairwise_append.1 steady).2.1
  rcases List.mem_cons.1 hb with rfl | hb
  · exact hcooled
  · exact Nat.le_trans hcooled (hlater.1 b hb)

theorem AllPaced.close (h : AllPaced policy host acts) (steady : Steady acts)
    {mid newer : List Act} {b : Act} (heq : acts = older ++ a :: mid ++ b :: newer)
    (ha : a.calls ≠ []) (hclose : b.reading.nanos < a.reading.nanos + policy.cooldown.nanos) :
    ∀ r ∈ mid ++ [b], r.resets host = false := by
  -- A reset in between would come after the first request and a cooldown before the second.
  have hapart : ∀ before r after, acts = (older ++ a :: before) ++ r :: after → b ∈ r :: after →
      r.resets host = false := by
    intro before r after hacts hb
    refine Bool.eq_false_iff.2 fun hreset => ?_
    obtain ⟨c, hc, hnone⟩ := Act.of_resets hreset
    obtain ⟨-, hheard, hrested⟩ := h.rested steady hacts hc hnone
    have hfirst := hheard a (by simp) ha
    have hsecond := hrested b hb
    omega
  intro r hr
  rcases List.mem_append.1 hr with hr | hr
  · obtain ⟨before, between, rfl⟩ := List.append_of_mem hr
    exact hapart before r (between ++ b :: newer) (by simp [heq]) (by simp)
  · obtain rfl := List.mem_singleton.1 hr
    exact hapart mid r newer heq List.mem_cons_self

theorem callsOf_filter_le (p : Act → Bool) (acts : List Act) :
    (callsOf (acts.filter p)).length ≤ (callsOf acts).length :=
  ((List.filter_sublist).flatMap Act.calls).length_le

/-- Requests that lie within less than a cooldown go out between the same resets. -/
theorem AllPaced.within (h : AllPaced policy host acts) (steady : Steady acts) {low high : Nat}
    (short : high < low + policy.cooldown.nanos) :
    (callsOf (acts.filter fun a => low ≤ a.reading.nanos ∧ a.reading.nanos ≤ high)).length
      ≤ policy.threshold + 2 := by
  induction acts using List.reverseRecOn with
  | nil => exact Nat.zero_le _
  | append_singleton acts a ih =>
      have hbefore := ih h.of_append steady.of_append
      by_cases hin : a.calls ≠ [] ∧ low ≤ a.reading.nanos ∧ a.reading.nanos ≤ high
      · obtain ⟨hcalls, hlow, hhigh⟩ := hin
        -- What went out before the latest reset went out before the stretch.
        obtain ⟨older, r, recent, heq, hr, hkept⟩ := exists_since host acts a
        have ha : a ∈ r :: recent := by
          have hlast := congrArg List.getLast? heq
          rw [List.getLast?_concat, List.getLast?_append_of_ne_nil _ (List.cons_ne_nil r recent)]
            at hlast
          exact List.mem_of_getLast? hlast.symm
        have holder : callsOf (older.filter fun a =>
            low ≤ a.reading.nanos ∧ a.reading.nanos ≤ high) = [] := by
          rcases hr with rfl | hreset
          · rfl
          · obtain ⟨c, hc, hnone⟩ := Act.of_resets hreset
            obtain ⟨-, hheard, hrested⟩ := h.rested steady heq hc hnone
            refine List.flatMap_eq_nil_iff.2 fun b hb => ?_
            obtain ⟨hb, hrange⟩ := List.mem_filter.1 hb
            by_contra hcalled
            have hfirst := hheard b hb hcalled
            have hlast := hrested a ha
            have hrange := of_decide_eq_true hrange
            omega
        have hwhole : acts ++ [a] = older ++ r :: recent ++ [] := by rw [List.append_nil, heq]
        rw [heq, List.filter_append, callsOf_append, holder, List.nil_append]
        exact Nat.le_trans (callsOf_filter_le _ _) (h.few hwhole hkept)
      · rw [List.filter_append, callsOf_append]
        have hnone : callsOf ([a].filter fun a =>
            low ≤ a.reading.nanos ∧ a.reading.nanos ≤ high) = [] := by
          refine List.flatMap_eq_nil_iff.2 fun b hb => ?_
          obtain ⟨hb, hrange⟩ := List.mem_filter.1 hb
          rw [List.mem_singleton.1 hb] at hrange ⊢
          by_contra hcalled
          exact hin ⟨hcalled, of_decide_eq_true hrange⟩
        rw [hnone, List.append_nil]
        exact hbefore

/-- A host whose requests fail is left alone by all probes of it that follow each other, whatever
    their deadlines and whatever time passes. -/
theorem Series.leftAlone (threshold : UInt32) (cooldown : Span) {host : String} {acts : List Act}
    {now : Nat} {scene : Scene} {busy : Bool}
    (series : Series (.ofSettings threshold.toNat cooldown) host acts now scene busy)
    (steady : Steady acts) :
    LeftAlone (.ofSettings threshold.toNat cooldown) host acts := by
  have hpaced := (series.paced (CircuitPolicy.threshold_pos ..)
    (CircuitPolicy.threshold_le_mostFailures ..) steady).1
  exact {
    toHost := by
      intro call hcall
      obtain ⟨a, ha, hcall⟩ := List.mem_flatMap.1 hcall
      obtain ⟨older, newer, heq⟩ := List.append_of_mem ha
      exact (hpaced older a newer heq).toHost call hcall
    few := fun older a recent newer heq kept => hpaced.few heq kept
    rested := fun older a newer c heq hc hnone => hpaced.rested steady heq hc hnone
    close := fun older a mid b newer heq ha _ hclose => hpaced.close steady heq ha hclose
    within := fun low high short => hpaced.within steady short }

/-! A network on which a name is looked up in 5 ms, and every request gets the status 503 after
10 ms. -/

/-- The setting of that network, where one failure opens a circuit. -/
def failingSetting : Setting where
  network := { Course.sampleSetting.network with reply := fun _ _ => ⟨.ok 503, some 10⟩ }
  policy := .ofSettings (1 : UInt32).toNat .zero

/-- A probe asks the root of all domain names three times after the first failure is due to open its
    circuit; more requests cannot go out before the circuit is reset. -/
theorem Series.leftAlone_root : ∃ acts scene,
    Series failingSetting.policy "." acts 35 scene false ∧ Steady acts ∧
      (callsOf acts).length = failingSetting.policy.threshold + 2 ∧
      LeftAlone failingSetting.policy "." acts := by
  have hbegin : step failingSetting 0 1000 Course.sampleScene (.fresh ".")
      = ({ Course.sampleScene with traffic := Course.sampleScene.traffic.addLookup "." },
          .lookingUp ⟨"https://./".toList, "."⟩ (.ok [.v4 (Address.ofOctets 8 8 8 8)])
            (some 5)) := by
    rw [step, Probe.begin, Course.candidate?_root]
    rfl
  have hlooks := (.begin : Course failingSetting 1000 "." 0 Course.sampleScene _ _ _ _).act rfl rfl
  rw [hbegin] at hlooks
  have hasks := (hlooks.time rfl (by decide) (by decide) : Course _ _ _ _ _ _ 5 _ _).act rfl rfl
  have hfails := (hasks.time rfl (by decide) (by decide) : Course _ _ _ _ _ _ 15 _ _).act rfl rfl
  have hagain := hfails.act rfl rfl
  have hfails := (hagain.time rfl (by decide) (by decide) : Course _ _ _ _ _ _ 25 _ _).act rfl rfl
  have hagain := hfails.act rfl rfl
  have hfails := (hagain.time rfl (by decide) (by decide) : Course _ _ _ _ _ _ 35 _ _).act rfl rfl
  have htarget : target? "." = some ⟨"https://./".toList, "."⟩ := by
    rw [target?, Course.candidate?_root]
    rfl
  have hfailing : ∀ a : Act, a.Fails failingSetting.network 1000 := by
    rintro a call - ⟨status, t, hok, -, hlt, -⟩
    cases hok
    exact absurd hlt (by decide)
  have hseries := (Series.start rfl : Series failingSetting.policy "." [] 0 Course.sampleScene
    false).probe htarget rfl hfails fun a _ => hfailing a
  refine ⟨_, _, hseries, ?steady, rfl, Series.leftAlone 1 .zero hseries ?steady⟩
  unfold Steady
  decide

end Reachability.Probe
