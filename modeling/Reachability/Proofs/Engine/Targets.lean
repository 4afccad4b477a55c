import Reachability.Proofs.Engine.Checks
import Reachability.Proofs.Probe.Target
import Reachability.Proofs.Trail

set_option autoImplicit false

/-! # Whom the checks of batches ask

The guard decides by what a check is told when it has the name of its host looked up. All requests
that the check makes afterwards go to that host, so none goes to a host that is not public
(`guard_exact`). -/

namespace Reachability

/-- The requests made in a turn. -/
def Deed.calls (d : Deed Engine.World Engine.Activity) : List Call :=
  Probe.added d.found.scene.traffic.calls d.turn.shared.scene.traffic.calls

namespace Engine

/-- On a trail, a check has found the host of a URL to be public when it looked at its link. -/
def Cleared (networks : Nat → TaskKey → World → Network) (deeds : List (Deed World Activity))
    (key : TaskKey) (link : String) (url : Url) : Prop :=
  ∃ d ∈ deeds, d.key = key ∧
    (∃ parent deadline, d.task = .check parent deadline (.probing link (.fresh link))) ∧
    Guard.Public (fun name => ((networks d.time d.key d.found).lookup name).value) url.namedHost?

variable {s : Settings} {networks : Nat → TaskKey → World → Network}
  {pace : Crowd World Activity → Nat → Prop} {first c : Crowd World Activity}
  {deeds : List (Deed World Activity)} {key : TaskKey} {a : Activity}

theorem Cleared.append {link : String} {url : Url} (h : Cleared networks deeds key link url)
    (more : List (Deed World Activity)) : Cleared networks (deeds ++ more) key link url := by
  obtain ⟨d, hd, hrest⟩ := h
  exact ⟨d, List.mem_append_left _ hd, hrest⟩

/-- Every check that probes has found out that its target is public, or is about to. -/
def AllCleared (networks : Nat → TaskKey → World → Network) (deeds : List (Deed World Activity))
    (c : Crowd World Activity) : Prop :=
  ∀ (key : TaskKey) parent deadline link stage,
    c.tasks[key]? = some (.check parent deadline (.probing link stage)) →
    stage.Allowed link (Cleared networks deeds key link)

/-- What a check finds out in the turn in which it looks at its link. -/
theorem cleared_of_fresh {parent : TaskKey} {deadline : Nat} {link : String} {url : Url}
    (hblocked : Guard.isBlocked
      (fun name => ((networks c.now key c.shared).lookup name).value) url.namedHost? = false) :
    Cleared networks
      (deeds ++ [c.deed (amid s networks) key
        (.check parent deadline (.probing link (.fresh link)))]) key link url :=
  ⟨_, List.mem_append_right _ (List.mem_singleton_self _), rfl, ⟨parent, deadline, rfl⟩,
    Guard.isBlocked_eq_false_iff.1 hblocked⟩

/-- What a turn of a probing check does. -/
theorem probe_keeps {parent : TaskKey} {deadline : Nat} {link : String} {stage : Probe.Stage}
    (h : stage.Allowed link (Cleared networks deeds key link)) :
    let d := c.deed (amid s networks) key (.check parent deadline (.probing link stage))
    let after := Probe.step (s.over (networks c.now key c.shared)).probe c.now deadline
      c.shared.scene stage
    after.2.Allowed link (Cleared networks (deeds ++ [d]) key link) ∧
      (after.1.traffic.calls = c.shared.scene.traffic.calls ∨
        ∃ url, Link.candidate? link = some url ∧
          Cleared networks (deeds ++ [d]) key link url ∧
          Probe.Asks c.now deadline (.ofUrl url) c.shared.scene after.1) := by
  refine Probe.step_keeps (h.mono fun url hcleared => hcleared.append _) ?_
  rintro rfl url - hblocked
  exact cleared_of_fresh hblocked

theorem AllCleared.turn (h : AllCleared networks deeds c) (joined : Joined c)
    (can : c.CanGo (amid s networks) key a) :
    AllCleared networks (deeds ++ [c.deed (amid s networks) key a])
      (c.turn (amid s networks) key a) := by
  intro k parent deadline link stage hk
  have hdeals := joined.deals can
  rcases Crowd.getElem?_after can.here hk with ⟨rfl, htask⟩ | ⟨-, hk⟩ | ⟨i, -, hi⟩
  · generalize ht : (amid s networks).step c.now k c.tasks.length c.shared a = t at hdeals htask
    cases hdeals with
    | starts holds =>
        cases htask
        exact rfl
    | probes going =>
        cases htask
        exact (probe_keeps (h _ _ _ _ _ can.here)).1
    | aside haway =>
        have hafter := haway.after
        rw [← htask] at hafter
        cases hafter
    | _ => cases htask
  · exact (h k parent deadline link stage hk).mono fun url hcleared => hcleared.append _
  · rcases hdeals.started_cases (List.mem_of_getElem? hi) with
      ⟨link', task, deadline', heq, -⟩ | ⟨job, stage', heq⟩ <;> cases heq

/-- The requests of a turn are those of a check, to the host of its link, which is public. -/
theorem calls_of_turn (h : AllCleared networks deeds c) (joined : Joined c)
    (can : c.CanGo (amid s networks) key a) {call : Call}
    (hcall : call ∈ (c.deed (amid s networks) key a).calls) :
    ∃ parent deadline link stage url, a = .check parent deadline (.probing link stage) ∧
      Link.candidate? link = some url ∧ c.now < deadline ∧
      call = ⟨c.now, (Probe.Target.ofUrl url).host, url.text⟩ ∧
      Cleared networks (deeds ++ [c.deed (amid s networks) key a]) key link url := by
  have hdeals := joined.deals can
  have hnone : ∀ {scene : Probe.Scene},
      ((amid s networks).step c.now key c.tasks.length c.shared a).shared.scene.traffic =
        scene.traffic → scene.traffic.calls = c.shared.scene.traffic.calls → False := by
    intro scene hscene hcalls
    rw [Deed.calls, Crowd.deed, hscene, hcalls, Probe.added_self] at hcall
    cases hcall
  generalize ht : (amid s networks).step c.now key c.tasks.length c.shared a = t at hdeals hnone
  cases hdeals with
  | probes going =>
      rename_i parent deadline link stage
      obtain ⟨-, hcalls | ⟨url, hurl, hcleared, hcalls | ⟨hlt, hcalls⟩⟩⟩ :=
        probe_keeps (h _ _ _ _ _ can.here)
      · exact (hnone rfl hcalls).elim
      · exact (hnone rfl hcalls).elim
      · rw [Deed.calls, Crowd.deed, ht] at hcall
        have hadded : Probe.added c.shared.scene.traffic.calls
            (Probe.step (s.over (networks c.now key c.shared)).probe c.now deadline
              c.shared.scene stage).1.traffic.calls
            = [⟨c.now, (Probe.Target.ofUrl url).host, url.text⟩] := by
          rw [hcalls]
          exact Probe.added_cons _ _
        rw [hadded] at hcall
        exact ⟨parent, deadline, link, stage, url, rfl, hurl, hlt, List.mem_singleton.1 hcall,
          hcleared⟩
  | givesUp without late =>
      exact (hnone (congrArg Probe.Scene.traffic (LinkCheck.scene_report ..)) rfl).elim
  | ends => exact (hnone (congrArg Probe.Scene.traffic (LinkCheck.scene_report ..)) rfl).elim
  | aside haway => exact (hnone haway.traffic rfl).elim
  | _ => exact (hnone rfl rfl).elim

/-- On every trail, the checks that probe have found out that their targets are public. -/
theorem AllCleared.of_trail {w : World}
    (trail : Crowd.Trail (amid s networks) pace Requested w.crowd deeds c) :
    AllCleared networks deeds c := by
  induction trail with
  | begin =>
      intro key parent deadline link stage hkey
      cases World.eq_idle_of_crowd hkey
  | turn trail can ih => exact ih.turn (.of_run trail.run) can
  | await trail le may ih => exact ih
  | call trail may ih =>
      intro key parent deadline link stage hkey
      rcases Crowd.getElem?_call hkey with ⟨-, rfl⟩ | hkey
      · cases may
      · exact ih key parent deadline link stage hkey

/-- All requests on a trail are made by checks, before their deadlines, to hosts that they have
    found to be public. -/
theorem calls_of_trail {w : World}
    (trail : Crowd.Trail (amid s networks) pace Requested w.crowd deeds c) :
    ∀ d ∈ deeds, ∀ call ∈ d.calls, ∃ parent deadline link stage url,
      d.task = .check parent deadline (.probing link stage) ∧
      Link.candidate? link = some url ∧ d.time < deadline ∧
      call = ⟨d.time, (Probe.Target.ofUrl url).host, url.text⟩ ∧
      Cleared networks deeds d.key link url := by
  induction trail with
  | begin => exact List.forall_mem_nil _
  | turn trail can ih =>
      intro d hd call hcall
      rcases List.mem_append.1 hd with hd | hd
      · obtain ⟨parent, deadline, link, stage, url, htask, hurl, hlt, hto, hcleared⟩ :=
          ih d hd call hcall
        exact ⟨parent, deadline, link, stage, url, htask, hurl, hlt, hto, hcleared.append _⟩
      · obtain rfl := List.mem_singleton.1 hd
        exact calls_of_turn (.of_trail trail) (.of_run trail.run) can hcall
  | await trail le may ih => exact ih
  | call trail may ih => exact ih

/-- The guard decides exactly as it should: the addresses that it takes for forbidden are those of
    the given ranges, and it lets a host through just if it is public. So the requests of checks, on
    any trail and amid any networks, go to the hosts of their links, by what each check found out in
    the turn in which it looked at its link. -/
theorem guard_exact :
    (∀ a : Address, a.isForbidden = true ↔ a.Forbidden) ∧
    (∀ (lookup : String → Guard.Answer) (u : Url),
      Guard.isBlocked lookup u.namedHost? = false ↔ Guard.Public lookup u.namedHost?) ∧
    ∀ (s : Settings) (networks : Nat → TaskKey → World → Network) (w : World)
      (deeds : List (Deed World Activity)) (c : Crowd World Activity),
      Crowd.Trail (amid s networks) Crowd.anyTime Requested w.crowd deeds c →
      ∀ d ∈ deeds, ∀ call ∈ d.calls, ∃ parent deadline link stage url,
        d.task = .check parent deadline (.probing link stage) ∧
        Link.candidate? link = some url ∧
        call = ⟨d.time, (Probe.Target.ofUrl url).host, url.text⟩ ∧
        ∃ d' ∈ deeds, d'.key = d.key ∧
          (∃ parent deadline, d'.task = .check parent deadline (.probing link (.fresh link))) ∧
          Guard.Public (fun name => ((networks d'.time d'.key d'.found).lookup name).value)
            url.namedHost? := by
  refine ⟨Address.isForbidden_iff, fun lookup u => Guard.isBlocked_eq_false_iff, ?_⟩
  intro s networks w deeds c trail d hd call hcall
  obtain ⟨parent, deadline, link, stage, url, htask, hurl, -, hto, hcleared⟩ :=
    calls_of_trail trail d hd call hcall
  exact ⟨parent, deadline, link, stage, url, htask, hurl, hto, hcleared⟩

/-- A check that was told a public address makes its request to the host that it looked up. -/
theorem guard_exact_public_name : ∃ (deeds : List (Deed World Activity))
    (c : Crowd World Activity) (d d' : Deed World Activity) (url : Url),
    Crowd.Trail (amid sampleSettings sampleNetworks) Crowd.anyTime Requested sampleCrowd deeds c ∧
      d ∈ deeds ∧ d.calls = [⟨5, ".", "https://./".toList⟩] ∧ d' ∈ deeds ∧ d'.key = d.key ∧
      Guard.Public (fun name => ((sampleNetworks d'.time d'.key d'.found).lookup name).value)
        url.namedHost? := by
  obtain ⟨n, c, run, -, hnone, can, scene, left, outcome, finish, hstep, hcall⟩ := sample_answered
  obtain ⟨deeds, trail⟩ := run.trail
  have trail' := trail.turn can
  have hmem := List.mem_append_right deeds (List.mem_singleton_self
    (c.deed (amid sampleSettings sampleNetworks) 2 sampleAnswered))
  have hcalls : (c.deed (amid sampleSettings sampleNetworks) 2 sampleAnswered).calls
      = [⟨5, ".", "https://./".toList⟩] := by
    rw [Deed.calls, Crowd.deed, hstep, hnone]
    exact congrArg (Probe.added []) hcall
  obtain ⟨parent, deadline, link, stage, url, -, -, -, d', hd', hkey, -, hpublic⟩ :=
    guard_exact.2.2 _ _ _ _ _ trail' _ hmem _ (hcalls ▸ List.mem_singleton_self _)
  exact ⟨_, _, _, d', url, trail', hmem, hcalls, hd', hkey, hpublic⟩

end Engine

end Reachability
