import Reachability.Proofs.Probe.Course

set_option autoImplicit false

/-! # What a probe comes to

A probe asks its target at most three times, with a pause between two requests (`script`), and only
after the guard and the circuit have let it through; otherwise nothing is asked and no circuit
changes. Each request either is answered well in time, which ends the probe and clears the circuit,
or counts as one failure. A probe gives up before the third request only at its deadline. -/

namespace Reachability.Probe

/-! ## The law -/

/-- A target that the guard lets through: when that is known, and the number of turns before. -/
structure Clearance where
  /-- The target. -/
  target : Target
  /-- When it is let through. -/
  time : Nat
  /-- How many turns came before the one in which the circuit is asked. -/
  place : Nat

/-- The target of a link, if the guard lets it through in time: by the deadline, or, when the probe
    begins after its deadline, at its start. -/
def cleared? (network : Network) (start deadline : Nat) (link : String) : Option Clearance :=
  match Link.candidate? link with
  | none => none
  | some url =>
    match Guard.judge url.namedHost? with
    | .decided true => none
    | .decided false => some ⟨.ofUrl url, start, 0⟩
    | .ask name =>
      ((network.lookup name).finish start).bind fun t =>
        if t ≤ max start deadline ∧ Guard.blocks (network.lookup name).value = false then
          some ⟨.ofUrl url, t, 1⟩
        else none

section Cleared

variable (network : Network) (start deadline : Nat) {link : String} {url : Url}

theorem cleared?_of_ask {name : String} (hurl : Link.candidate? link = some url)
    (hask : Guard.judge url.namedHost? = .ask name) :
    cleared? network start deadline link = ((network.lookup name).finish start).bind fun t =>
      if t ≤ max start deadline ∧ Guard.blocks (network.lookup name).value = false then
        some ⟨.ofUrl url, t, 1⟩
      else none := by
  simp only [cleared?, hurl, hask]

theorem cleared?_of_decided {blocked : Bool} (hurl : Link.candidate? link = some url)
    (hdecided : Guard.judge url.namedHost? = .decided blocked) :
    cleared? network start deadline link
      = if blocked = true then none else some ⟨.ofUrl url, start, 0⟩ := by
  simp only [cleared?, hurl, hdecided]
  cases blocked <;> rfl

end Cleared

theorem target?_of_cleared {network : Network} {start deadline : Nat} {link : String}
    {c : Clearance} (h : cleared? network start deadline link = some c) :
    target? link = some c.target := by
  cases hurl : Link.candidate? link with
  | none =>
      simp only [cleared?, hurl] at h
      cases h
  | some url =>
      rw [target?, hurl, Option.map_some]
      cases hjudge : Guard.judge url.namedHost? with
      | decided blocked =>
          rw [cleared?_of_decided _ _ _ hurl hjudge] at h
          split at h <;> cases h
          rfl
      | ask name =>
          rw [cleared?_of_ask _ _ _ hurl hjudge] at h
          obtain ⟨t, -, ht⟩ := Option.bind_eq_some_iff.1 h
          split at ht <;> cases ht
          rfl

/-- What a probe does at the most, in this order. -/
def script (target : Target) : List Event :=
  [.request target, .rest (.ofMillis 100), .request target, .rest (.ofMillis 300),
    .request target]

/-- Whether a request, the next after `k` others to its host, is answered by the deadline, and with
    a status from 200 to 399. -/
def AnswersWell (network : Network) (deadline : Nat) (k : Nat) (call : Call) : Prop :=
  ∃ status t, (network.reply call.host k).value = .ok status ∧ 200 ≤ status ∧ status < 400 ∧
    (network.reply call.host k).finish call.time = some t ∧ t ≤ deadline

/-- Nothing was asked, and no circuit changed. -/
structure Refused (acts : List Act) (status : LinkStatus) : Prop where
  status_eq : status = .notAvailable
  silent : eventsOf acts = []
  unchanged : ∀ a ∈ acts, a.after.circuits = a.before.circuits

/-- What came of asking a target that had `base` failures and had been asked `k` times: `calls` are
    the requests. -/
structure Asked (network : Network) (deadline : Nat) (target : Target) (base k : Nat)
    (acts : List Act) (calls : List Call) (scene : Scene) (status : LinkStatus) : Prop where
  /-- At most three requests to the target, with the pauses between them. -/
  script : eventsOf acts <+: script target
  /-- The target is available if the last request is answered well, and only then. -/
  available_iff : status = .available ↔
    ∃ n call, calls[n]? = some call ∧ n + 1 = calls.length ∧
      AnswersWell network deadline (k + n) call
  /-- No request but the last one is answered well. -/
  earlier : ∀ n call, calls[n]? = some call → n + 1 < calls.length →
    ¬ AnswersWell network deadline (k + n) call
  /-- There is no pause after a request that is answered well. -/
  last : status = .available → (eventsOf acts).getLast? = some (.request target)
  /-- Only the deadline ends a probe that is not available before the third request. -/
  late : status = .notAvailable → calls.length < 3 →
    ∃ a, acts.getLast? = some a ∧ deadline ≤ a.time
  /-- Each request counts once. -/
  count : scene.circuits.failureCount target.host =
    if status = .available then 0 else min (base + calls.length) Circuit.mostFailures
  /-- No other circuit changes. -/
  others : ∀ a ∈ acts, ∀ host, host ≠ target.host →
    a.after.circuits.get? host = a.before.circuits.get? host

/-- What the circuit of a target says in the turn that finds `found`, and the circuits after that.
    -/
def gateOf (s : Setting) (first : Scene) (c : Clearance) (found : Scene) : Bool × Circuits :=
  first.circuits.allow s.policy (found.clock.reading c.time) c.target.host

/-- What is true of a probe at its end. -/
def Law (s : Setting) (deadline : Nat) (link : String) (start : Nat) (first : Scene)
    (acts : List Act) (scene : Scene) (status : LinkStatus) : Prop :=
  match cleared? s.network start deadline link with
  | none => Refused acts status
  | some c => ∃ found after, acts[c.place]? = some ⟨c.time, found, after⟩ ∧
      if (gateOf s first c found).1 = true then
        Asked s.network deadline c.target ((gateOf s first c found).2.failureCount c.target.host)
          (first.traffic.callsTo c.target.host) acts (callsOf acts) scene status
      else Refused acts status

theorem Refused.append {acts : List Act} {status : LinkStatus} {a : Act}
    (h : Refused acts status) (calls : a.after.traffic.calls = a.before.traffic.calls)
    (sleeps : a.after.clock.sleeps = a.before.clock.sleeps)
    (circuits : a.after.circuits = a.before.circuits) : Refused (acts ++ [a]) status where
  status_eq := h.status_eq
  silent := by
    rw [eventsOf_append, eventsOf_singleton, h.silent, Act.events, Act.calls, Act.rests, calls,
      sleeps, added_self, added_self]
    rfl
  unchanged b hb := by
    rcases List.mem_append.1 hb with hb | hb
    · exact h.unchanged b hb
    · rw [List.mem_singleton.1 hb]
      exact circuits

/-! ## Within a turn -/

/-- A scene within a turn that began with `before`: nothing that can be seen has been done, and only
    the circuit of the host may have changed. -/
structure Within (host : String) (before mid : Scene) : Prop where
  calls : mid.traffic.calls = before.traffic.calls
  sleeps : mid.clock.sleeps = before.clock.sleeps
  others : ∀ other, other ≠ host → mid.circuits.get? other = before.circuits.get? other

/-- What the turns of a probe show whose target had been asked `k` times: it has made `asked`
    requests, of which the first `failed` have failed, and has asked for `rests` pauses. -/
structure Shown (network : Network) (deadline : Nat) (target : Target) (k : Nat)
    (asked failed rests : Nat) (acts : List Act) : Prop where
  events : eventsOf acts = (script target).take (asked + rests)
  length : (callsOf acts).length = asked
  failures : ∀ n call, (callsOf acts)[n]? = some call → n < failed →
    ¬ AnswersWell network deadline (k + n) call
  others : ∀ a ∈ acts, ∀ host, host ≠ target.host →
    a.after.circuits.get? host = a.before.circuits.get? host

/-- The state of a probe whose target had `base` failures: those of its requests that have failed
    are counted. -/
structure Tried (network : Network) (deadline : Nat) (target : Target) (base k : Nat)
    (asked failed rests : Nat) (acts : List Act) (scene : Scene) : Prop
    extends Shown network deadline target k asked failed rests acts where
  callsTo : scene.traffic.callsTo target.host = k + asked
  count : scene.circuits.failureCount target.host = min (base + failed) Circuit.mostFailures

/-- A turn in which nothing can be seen. -/
theorem Shown.silent {network : Network} {deadline : Nat} {target : Target}
    {k asked failed rests now : Nat} {acts : List Act} {before after : Scene}
    (h : Shown network deadline target k asked failed rests acts)
    (hw : Within target.host before after) :
    Shown network deadline target k asked failed rests (acts ++ [⟨now, before, after⟩]) := by
  have hcalls : Act.calls ⟨now, before, after⟩ = [] := by
    rw [Act.calls, hw.calls, added_self]
  have hevents : Act.events ⟨now, before, after⟩ = [] := by
    rw [Act.events, hcalls, Act.rests, hw.sleeps, added_self]
    rfl
  refine ⟨?_, ?_, ?_, ?_⟩
  · simpa [hevents] using h.events
  · simpa [hcalls] using h.length
  · simpa [hcalls] using h.failures
  · intro a ha host hne
    rcases List.mem_append.1 ha with ha | ha
    · exact h.others a ha host hne
    · rw [List.mem_singleton.1 ha]
      exact hw.others host hne

namespace Tried

variable {network : Network} {deadline : Nat} {target : Target} {base k asked failed rests n : Nat}
variable {acts : List Act} {before mid scene : Scene} {now : Nat}

theorem spared (h : Tried network deadline target base k asked failed rests acts mid)
    (hspares : Spares target.host mid scene) :
    Tried network deadline target base k asked failed rests acts scene :=
  { h with
    callsTo := hspares.calls.trans h.callsTo
    count := (Circuits.failureCount_congr hspares.circuit).trans h.count }

theorem silent (h : Tried network deadline target base k asked failed rests acts mid)
    (hw : Within target.host before mid) :
    Tried network deadline target base k asked failed rests (acts ++ [⟨now, before, mid⟩]) mid :=
  { h.toShown.silent hw with callsTo := h.callsTo, count := h.count }

/-- A turn that ends with a request. -/
theorem request (now : Nat) (h : Tried network deadline target base k n n n acts mid) (hn : n < 3)
    (hw : Within target.host before mid) :
    Tried network deadline target base k (n + 1) n n
      (acts ++ [⟨now, before,
        { mid with traffic := mid.traffic.addCall ⟨now, target.host, target.url⟩ }⟩])
      { mid with traffic := mid.traffic.addCall ⟨now, target.host, target.url⟩ } ∧
    (callsOf (acts ++ [⟨now, before,
        { mid with traffic := mid.traffic.addCall ⟨now, target.host, target.url⟩ }⟩]))[n]?
      = some ⟨now, target.host, target.url⟩ := by
  have hcalls : Act.calls ⟨now, before,
      { mid with traffic := mid.traffic.addCall ⟨now, target.host, target.url⟩ }⟩
      = [⟨now, target.host, target.url⟩] := by
    rw [Act.calls, ← hw.calls]
    exact added_cons ..
  have hevents : Act.events ⟨now, before,
      { mid with traffic := mid.traffic.addCall ⟨now, target.host, target.url⟩ }⟩
      = [.request target] := by
    rw [Act.events, hcalls, Act.rests, hw.sleeps, added_self]
    rfl
  refine ⟨⟨⟨?_, ?_, ?_, ?_⟩, ?_, h.count⟩, ?_⟩
  · rw [eventsOf_append, eventsOf_singleton, hevents, h.events]
    match n, hn with
    | 0, _ => rfl
    | 1, _ => rfl
    | 2, _ => rfl
  · rw [callsOf_append, callsOf_singleton, hcalls, List.length_append, h.length]
    rfl
  · intro i call hi hlt
    rw [callsOf_append, List.getElem?_append_left (h.length ▸ hlt)] at hi
    exact h.failures i call hi hlt
  · intro a ha host hne
    rcases List.mem_append.1 ha with ha | ha
    · exact h.others a ha host hne
    · rw [List.mem_singleton.1 ha]
      exact hw.others host hne
  · have hone : (mid.traffic.addCall ⟨now, target.host, target.url⟩).callsTo target.host
        = mid.traffic.callsTo target.host + 1 := by
      simp [Traffic.callsTo, Traffic.addCall]
    exact hone.trans (by rw [h.callsTo, Nat.add_assoc])
  · rw [callsOf_append, callsOf_singleton, hcalls,
      List.getElem?_append_right (Nat.le_of_eq h.length), h.length, Nat.sub_self]
    rfl

/-- A turn that ends with a pause. -/
theorem rest {d : Span} {clock : Clock}
    (h : Tried network deadline target base k (n + 1) (n + 1) n acts mid) (hn : n < 2)
    (hw : Within target.host before mid) (hd : pauses[n]? = some d)
    (hclock : clock.sleeps = d :: mid.clock.sleeps) :
    Tried network deadline target base k (n + 1) (n + 1) (n + 1)
      (acts ++ [⟨now, before, { mid with clock }⟩]) { mid with clock } := by
  have hcalls : Act.calls ⟨now, before, { mid with clock }⟩ = [] := by
    rw [Act.calls, ← hw.calls]
    exact added_self _
  have hevents : Act.events ⟨now, before, { mid with clock }⟩ = [.rest d] := by
    have hrests : Act.rests ⟨now, before, { mid with clock }⟩ = [d] := by
      rw [Act.rests, ← hw.sleeps]
      show added mid.clock.sleeps clock.sleeps = [d]
      rw [hclock, added_cons]
    rw [Act.events, hcalls, hrests]
    rfl
  refine { h with events := ?_, length := ?_, failures := ?_, others := ?_ }
  · rw [eventsOf_append, eventsOf_singleton, hevents, h.events]
    match n, hn with
    | 0, _ => cases hd; rfl
    | 1, _ => cases hd; rfl
  · simpa [hcalls] using h.length
  · simpa [hcalls] using h.failures
  · intro a ha host hne
    rcases List.mem_append.1 ha with ha | ha
    · exact h.others a ha host hne
    · rw [List.mem_singleton.1 ha]
      exact hw.others host hne

/-- The last request has failed, and that is recorded. -/
theorem fail {call : Call} (now : Nat) (mid : Scene)
    (h : Tried network deadline target base k (n + 1) n n acts before)
    (hcall : (callsOf acts)[n]? = some call) (hbad : ¬ AnswersWell network deadline (k + n) call)
    (hhost : target.host ≠ "") (hcircuits : mid.circuits = before.circuits)
    (htraffic : mid.traffic.calls = before.traffic.calls) :
    Tried network deadline target base k (n + 1) (n + 1) n acts (Probe.fail now target mid) where
  events := h.events
  length := h.length
  failures i call' hi hlt := by
    by_cases hin : i = n
    · subst hin
      rw [hcall] at hi
      exact Option.some.inj hi ▸ hbad
    · exact h.failures i call' hi (by omega)
  callsTo := by
    rw [← h.callsTo]
    show (mid.traffic.calls.filter _).length = (before.traffic.calls.filter _).length
    rw [htraffic]
  count := by
    show (mid.circuits.failure (mid.clock.reading now) target.host).failureCount target.host = _
    rw [Circuits.failureCount_failure hhost, hcircuits, h.count]
    omega
  others := h.others

/-- A probe of which all requests have failed is not available. -/
theorem notAvailable (h : Tried network deadline target base k n n rests acts scene)
    (late : n < 3 → ∃ a, acts.getLast? = some a ∧ deadline ≤ a.time) :
    Asked network deadline target base k acts (callsOf acts) scene .notAvailable where
  script := h.events ▸ List.take_prefix ..
  available_iff := by
    refine ⟨nofun, ?_⟩
    rintro ⟨i, call, hcall, hlast, hwell⟩
    exact absurd hwell (h.failures i call hcall (by rw [← h.length]; omega))
  earlier i call hcall hlt := h.failures i call hcall (by rw [← h.length]; omega)
  last := nofun
  late _ hlt := late (h.length ▸ hlt)
  count := by rw [h.length, if_neg nofun, h.count]
  others := h.others

end Tried

end Reachability.Probe
