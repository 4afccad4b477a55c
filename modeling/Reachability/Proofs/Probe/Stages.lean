import Reachability.Proofs.Probe.Law

set_option autoImplicit false

/-! # Every probe keeps the law

What is known of a probe at each of its stages (`Sound`), kept by every turn of its own, by what
others do to other hosts, and by the passing of time. From that follows the law of every course that
a probe can take (`Course.complete_law`). -/

namespace Reachability.Probe

/-! ## Every course -/

/-- The guard and the circuit have let a probe through. -/
structure Passed (s : Setting) (deadline : Nat) (link : String) (start : Nat) (first : Scene)
    (acts : List Act) (c : Clearance) (found : Scene) : Prop where
  cleared : cleared? s.network start deadline link = some c
  place : ∃ after, acts[c.place]? = some ⟨c.time, found, after⟩
  allowed : (gateOf s first c found).1 = true

/-- What is known of a probe at each stage. -/
inductive Sound (s : Setting) (deadline : Nat) (link : String) (start : Nat) (first : Scene)
    (acts : List Act) (now : Nat) (scene : Scene) : Stage → Prop
  | fresh (none : acts = []) (now_eq : now = start)
      (spares : ∀ target, target? link = some target → Spares target.host first scene) :
      Sound s deadline link start first acts now scene (.fresh link)
  | lookingUp {url : Url} {name : String} {a : Act} (candidate : Link.candidate? link = some url)
      (asks : Guard.judge url.namedHost? = .ask name) (one : acts = [a]) (silent : a.events = [])
      (unchanged : a.after.circuits = a.before.circuits) (start_le : start ≤ now)
      (le : ∀ t, (s.network.lookup name).finish start = some t → now ≤ t)
      (now_le : now ≤ max start deadline)
      (spares : ∀ target, target? link = some target → Spares target.host first scene) :
      Sound s deadline link start first acts now scene
        (.lookingUp (.ofUrl url) (s.network.lookup name).value
          ((s.network.lookup name).finish start))
  | requesting {c : Clearance} {found : Scene} {n : Nat} {call : Call}
      (passed : Passed s deadline link start first acts c found) (lt : n < 3)
      (tried : Tried s.network deadline c.target
        ((gateOf s first c found).2.failureCount c.target.host)
        (first.traffic.callsTo c.target.host) (n + 1) n n acts scene)
      (called : (callsOf acts)[n]? = some call) (now_le : now ≤ deadline) :
      Sound s deadline link start first acts now scene
        (.requesting c.target (pauses.drop n)
          (s.network.reply call.host (first.traffic.callsTo c.target.host + n)).value
          ((s.network.reply call.host (first.traffic.callsTo c.target.host + n)).finish call.time))
  | pausing {c : Clearance} {found : Scene} {n : Nat} {finish : Option Nat}
      (passed : Passed s deadline link start first acts c found) (lt : n < 3)
      (tried : Tried s.network deadline c.target
        ((gateOf s first c found).2.failureCount c.target.host)
        (first.traffic.callsTo c.target.host) n n n acts scene) :
      Sound s deadline link start first acts now scene (.pausing c.target (pauses.drop n) finish)
  | finished {status : LinkStatus} (law : Law s deadline link start first acts scene status) :
      Sound s deadline link start first acts now scene (.finished status)

section Steps

variable {s : Setting} {deadline : Nat} {link : String} {start : Nat} {first : Scene}
variable {acts : List Act} {now : Nat} {before mid scene : Scene} {c : Clearance} {found : Scene}

/-- A candidate has a host. -/
theorem host_ne_empty {target : Target} (h : target? link = some target) : target.host ≠ "" := by
  obtain ⟨url, hurl, rfl⟩ := Option.map_eq_some_iff.1 h
  obtain ⟨host, hnamed, hne⟩ := Link.namedHost?_candidate hurl
  have hhost : (Target.ofUrl url).host = String.ofList host.text := by
    rw [Target.ofUrl, hnamed]
    rfl
  intro hempty
  refine Url.Host.text_ne_nil hne ?_
  rw [hhost] at hempty
  simpa using congrArg String.toList hempty

theorem Passed.append (h : Passed s deadline link start first acts c found) (a : Act) :
    Passed s deadline link start first (acts ++ [a]) c found where
  cleared := h.cleared
  place := by
    obtain ⟨after, hafter⟩ := h.place
    obtain ⟨hlt, -⟩ := List.getElem?_eq_some_iff.1 hafter
    exact ⟨after, (List.getElem?_append_left hlt).trans hafter⟩
  allowed := h.allowed

theorem Passed.host_ne_empty (h : Passed s deadline link start first acts c found) :
    c.target.host ≠ "" :=
  Probe.host_ne_empty (target?_of_cleared h.cleared)

theorem Passed.law (h : Passed s deadline link start first acts c found) {status : LinkStatus}
    (asked : Asked s.network deadline c.target
      ((gateOf s first c found).2.failureCount c.target.host)
      (first.traffic.callsTo c.target.host) acts (callsOf acts) scene status) :
    Law s deadline link start first acts scene status := by
  obtain ⟨after, hafter⟩ := h.place
  rw [Law, h.cleared]
  refine ⟨found, after, hafter, ?_⟩
  rw [if_pos h.allowed]
  exact asked

/-- An attempt is made, or the deadline has come. -/
theorem Sound.attempt {n : Nat} (hn : n < 3) (hw : Within c.target.host before mid)
    (tried : Tried s.network deadline c.target
      ((gateOf s first c found).2.failureCount c.target.host)
      (first.traffic.callsTo c.target.host) n n n acts mid)
    (passed : ∀ after,
      Passed s deadline link start first (acts ++ [⟨now, before, after⟩]) c found) :
    Sound s deadline link start first
      (acts ++ [⟨now, before, (Probe.attempt s now deadline c.target (pauses.drop n) mid).1⟩]) now
      (Probe.attempt s now deadline c.target (pauses.drop n) mid).1
      (Probe.attempt s now deadline c.target (pauses.drop n) mid).2 := by
  have hleft : pauses.drop n ≠ [] := by
    rw [Ne, List.drop_eq_nil_iff]
    exact Nat.not_le.2 hn
  unfold Probe.attempt
  split
  · next hstop =>
    have hlate : deadline ≤ now := hstop.resolve_right hleft
    refine .finished ((passed mid).law ((tried.silent hw).notAvailable fun _ => ?_))
    exact ⟨_, List.getLast?_concat .., hlate⟩
  · next hgo =>
    obtain ⟨hnext, hcalled⟩ := tried.request now hn hw
    have hnow : now ≤ deadline := Nat.le_of_not_le fun hle => hgo (.inl hle)
    rw [tried.callsTo]
    exact .requesting (passed _) hn hnext hcalled hnow

/-- After a failed request a pause follows, or the end. -/
theorem Sound.pause {n : Nat} (hn : n < 3) (hw : Within c.target.host before mid)
    (tried : Tried s.network deadline c.target
      ((gateOf s first c found).2.failureCount c.target.host)
      (first.traffic.callsTo c.target.host) (n + 1) (n + 1) n acts mid)
    (passed : Passed s deadline link start first acts c found) :
    Sound s deadline link start first
      (acts ++ [⟨now, before, (Probe.pause now deadline c.target (pauses.drop n) mid).1⟩]) now
      (Probe.pause now deadline c.target (pauses.drop n) mid).1
      (Probe.pause now deadline c.target (pauses.drop n) mid).2 := by
  obtain ⟨span, hd⟩ : ∃ span, pauses[n]? = some span := ⟨_, List.getElem?_eq_getElem hn⟩
  have hleft : pauses.drop n = span :: pauses.drop (n + 1) := by
    obtain ⟨_, rfl⟩ := List.getElem?_eq_some_iff.1 hd
    exact List.drop_eq_getElem_cons hn
  rw [hleft]
  simp only [Probe.pause]
  split
  · next hstop =>
    refine .finished ((passed.append _).law ((tried.silent hw).notAvailable fun hlt => ?_))
    have hmore : pauses.drop (n + 1) ≠ [] := by
      rw [Ne, List.drop_eq_nil_iff]
      exact Nat.not_le.2 hlt
    exact ⟨_, List.getLast?_concat .., hstop.resolve_left hmore⟩
  · next hgo =>
    have hlt : n + 1 < 3 := by
      refine Nat.lt_of_not_le fun hle => hgo (.inl ?_)
      exact List.drop_eq_nil_iff.2 hle
    have hsleeps : ∀ d, (mid.clock.sleep d now).1.sleeps = d :: mid.clock.sleeps := by
      intro d
      unfold Clock.sleep
      cases mid.clock.kind <;> rfl
    exact .pausing (passed.append _) hlt (tried.rest (Nat.lt_of_succ_lt_succ hlt) hw hd (hsleeps _))

/-- The circuit is asked, and then the target. -/
theorem Sound.ask (acts : List Act) (cleared : cleared? s.network start deadline link = some c)
    (place : acts.length = c.place) (time : now = c.time) (silent : eventsOf acts = [])
    (unchanged : ∀ a ∈ acts, a.after.circuits = a.before.circuits)
    (spares : Spares c.target.host first before)
    (range : first.circuits.failureCount c.target.host ≤ Circuit.mostFailures) :
    Sound s deadline link start first
      (acts ++ [⟨now, before, (Probe.gate s now deadline c.target before).1⟩]) now
      (Probe.gate s now deadline c.target before).1
      (Probe.gate s now deadline c.target before).2 := by
  obtain ⟨hsame, hcircuit⟩ :=
    Circuits.allow_congr s.policy (before.clock.reading now) spares.circuit
  have hplace : ∀ after, (acts ++ [Act.mk now before after])[c.place]?
      = some ⟨c.time, before, after⟩ := by
    intro after
    rw [← place, List.getElem?_concat_length, time]
  have hgate : gateOf s first c before
      = first.circuits.allow s.policy (before.clock.reading now) c.target.host := by
    rw [gateOf, time]
  unfold Probe.gate
  dsimp only
  split
  · next hallowed =>
    have hpassed : ∀ after, Passed s deadline link start first
        (acts ++ [⟨now, before, after⟩]) c before := fun after =>
      ⟨cleared, ⟨after, hplace after⟩, by rw [hgate, ← hsame, hallowed]⟩
    refine Sound.attempt (n := 0) (by decide) ⟨rfl, rfl, ?_⟩ ?_ hpassed
    · intro other hne
      exact Circuits.get?_allow_of_ne hne
    · exact {
        events := silent
        length := by
          rw [callsOf, List.length_eq_zero_iff, List.flatMap_eq_nil_iff]
          intro a ha
          have hevents := List.flatMap_eq_nil_iff.1 silent a ha
          rw [Act.events, List.append_eq_nil_iff, List.map_eq_nil_iff] at hevents
          exact hevents.1
        failures := nofun
        callsTo := spares.calls
        count := by
          rw [hgate, Circuits.failureCount_congr hcircuit, Nat.add_zero, Nat.min_eq_left]
          exact Nat.le_trans Circuits.failureCount_allow_le range
        others := fun a ha host hne => by rw [unchanged a ha] }
  · next hdenied =>
    rw [Bool.not_eq_true] at hdenied
    refine .finished ?_
    rw [Law, cleared]
    refine ⟨before, _, hplace _, ?_⟩
    rw [if_neg (by rw [hgate, ← hsame, hdenied]; decide)]
    refine Refused.append ⟨rfl, silent, unchanged⟩ rfl rfl ?_
    exact Circuits.allow_eq_of_denied hdenied

/-- A link without a target, or one that the guard keeps back. -/
theorem Law.refused {status : LinkStatus} (h : cleared? s.network start deadline link = none)
    (refused : Refused acts status) : Law s deadline link start first acts scene status := by
  rw [Law, h]
  exact refused

theorem Sound.begin (start_eq : now = start)
    (spares : ∀ target, target? link = some target → Spares target.host first before)
    (range : ∀ host, first.circuits.failureCount host ≤ Circuit.mostFailures) :
    Sound s deadline link start first
      [⟨now, before, (Probe.begin s now deadline link before).1⟩] now
      (Probe.begin s now deadline link before).1
      (Probe.begin s now deadline link before).2 := by
  have hempty : Refused [] .notAvailable := ⟨rfl, rfl, List.forall_mem_nil _⟩
  have hnothing : ∀ after : Scene, after.traffic.calls = before.traffic.calls →
      after.clock.sleeps = before.clock.sleeps → after.circuits = before.circuits →
      Refused [⟨now, before, after⟩] .notAvailable :=
    fun after hcalls hsleeps hcircuits => hempty.append hcalls hsleeps hcircuits
  subst start_eq
  unfold Probe.begin
  cases hurl : Link.candidate? link with
  | none =>
      refine .finished (Law.refused ?_ (hnothing before rfl rfl rfl))
      rw [cleared?, hurl]
  | some url =>
      have htarget : target? link = some (.ofUrl url) := by
        rw [target?, hurl, Option.map_some]
      dsimp only
      cases hjudge : Guard.judge url.namedHost? with
      | decided blocked =>
          have hcleared := cleared?_of_decided s.network now deadline hurl hjudge
          cases blocked with
          | true => exact .finished (Law.refused hcleared (hnothing before rfl rfl rfl))
          | false =>
              have hthrough : cleared? s.network now deadline link = some ⟨.ofUrl url, now, 0⟩ :=
                hcleared
              have hask :=
                Sound.ask [] hthrough rfl rfl rfl hempty.unchanged (spares _ htarget) (range _)
              exact hask
      | ask name =>
          have hquiet :=
            hnothing { before with traffic := before.traffic.addLookup name } rfl rfl rfl
          refine .lookingUp hurl hjudge rfl ?_ rfl (Nat.le_refl _) ?_ (Nat.le_max_left ..) ?_
          · have hevents := hquiet.silent
            rwa [eventsOf_singleton] at hevents
          · intro t ht
            obtain ⟨d, -, rfl⟩ := Option.map_eq_some_iff.1 ht
            exact Nat.le_add_right ..
          · intro target htarget'
            exact (spares target htarget').trans ⟨rfl, rfl⟩

/-- A look-up is over, or the deadline has come. -/
theorem Sound.lookedUp {answer : Guard.Answer} {finish : Option Nat} {target : Target}
    (h : Sound s deadline link start first acts now before (.lookingUp target answer finish))
    (ready : waitUntil now deadline finish = .nothing)
    (range : ∀ host, first.circuits.failureCount host ≤ Circuit.mostFailures) :
    Sound s deadline link start first
      (acts ++ [⟨now, before, (step s now deadline before (.lookingUp target answer finish)).1⟩])
      now (step s now deadline before (.lookingUp target answer finish)).1
      (step s now deadline before (.lookingUp target answer finish)).2 := by
  cases h with
  | @lookingUp url name a hurl hjudge hone hsilent hsame hstart hle hnow hspares =>
    subst hone
    have hquiet : Refused [a] .notAvailable := by
      refine ⟨rfl, by rwa [eventsOf_singleton], fun b hb => ?_⟩
      rw [List.mem_singleton.1 hb]
      exact hsame
    have htarget : target? link = some (.ofUrl url) := by
      rw [target?, hurl, Option.map_some]
    simp only [step]
    split
    · next hpass =>
      rw [Bool.and_eq_true, hasCome_iff, Bool.not_eq_true'] at hpass
      obtain ⟨⟨t, ht, htnow⟩, hpublic⟩ := hpass
      have heq : now = t := Nat.le_antisymm (hle t ht) htnow
      refine Sound.ask _ (c := ⟨.ofUrl url, t, 1⟩) ?_ rfl heq hquiet.silent hquiet.unchanged
        (hspares _ htarget) (range _)
      rw [cleared?_of_ask _ _ _ hurl hjudge, ht]
      exact if_pos ⟨heq ▸ hnow, hpublic⟩
    · next hstop =>
      refine .finished (Law.refused ?_ (hquiet.append rfl rfl rfl))
      rw [cleared?_of_ask _ _ _ hurl hjudge]
      cases ht : (s.network.lookup name).finish start with
      | none => rfl
      | some t =>
        -- It came too late: otherwise the look-up would be over.
        refine if_neg fun hpass => hstop ?_
        rw [Bool.and_eq_true, hasCome_iff, Bool.not_eq_true']
        refine ⟨⟨t, ht, ?_⟩, hpass.2⟩
        rcases waitUntil_eq_nothing.1 ready with hcome | hdead
        · obtain ⟨t', ht', hle'⟩ := hasCome_iff.1 hcome
          rw [ht] at ht'
          exact Option.some.inj ht' ▸ hle'
        · omega

theorem isSuccess_iff {status : Nat} : isSuccess status = true ↔ 200 ≤ status ∧ status < 400 := by
  simp [isSuccess]

/-- A probe ends with the first request that is answered well. -/
theorem Shown.available {network : Network} {deadline : Nat} {target : Target}
    {base k n : Nat} {acts : List Act} {scene : Scene} {call : Call}
    (h : Shown network deadline target k (n + 1) n n acts) (hn : n < 3)
    (hcall : (callsOf acts)[n]? = some call) (hwell : AnswersWell network deadline (k + n) call)
    (hcount : scene.circuits.failureCount target.host = 0) :
    Asked network deadline target base k acts (callsOf acts) scene .available where
  script := h.events ▸ List.take_prefix ..
  available_iff := iff_of_true rfl ⟨n, call, hcall, h.length.symm, hwell⟩
  earlier i call' hi hlt := h.failures i call' hi (by rw [h.length] at hlt; omega)
  last _ := by
    rw [h.events]
    match n, hn with
    | 0, _ => rfl
    | 1, _ => rfl
    | 2, _ => rfl
  late := nofun
  count := by rw [if_pos rfl, hcount]
  others := h.others

section Answers

variable {n : Nat} {call : Call}

/-- A request that is answered well ends the probe. -/
theorem Sound.succeeds (passed : Passed s deadline link start first acts c found) (hn : n < 3)
    (tried : Tried s.network deadline c.target
      ((gateOf s first c found).2.failureCount c.target.host)
      (first.traffic.callsTo c.target.host) (n + 1) n n acts before)
    (hcall : (callsOf acts)[n]? = some call)
    (hwell : AnswersWell s.network deadline (first.traffic.callsTo c.target.host + n) call) :
    Sound s deadline link start first
      (acts ++ [⟨now, before, succeed c.target { before with traffic := before.traffic.answered }⟩])
      now (succeed c.target { before with traffic := before.traffic.answered })
      (.finished .available) := by
  have hwithin : Within c.target.host before (succeed c.target
      { before with traffic := before.traffic.answered }) :=
    ⟨rfl, rfl, fun other hne => Circuits.get?_success_of_ne hne⟩
  have hcalled : (callsOf (acts ++ [⟨now, before, succeed c.target
      { before with traffic := before.traffic.answered }⟩]))[n]? = some call := by
    rw [callsOf_append, List.getElem?_append_left]
    · exact hcall
    · exact (List.getElem?_eq_some_iff.1 hcall).1
  exact .finished ((passed.append _).law ((tried.toShown.silent hwithin).available hn hcalled hwell
    (Circuits.failureCount_success passed.host_ne_empty)))

/-- A failure concerns no other circuit. -/
theorem Within.fail {target : Target} (calls : mid.traffic.calls = before.traffic.calls)
    (clock : mid.clock = before.clock) (circuits : mid.circuits = before.circuits) :
    Within target.host before (Probe.fail now target mid) where
  calls := calls
  sleeps := congrArg Clock.sleeps clock
  others other hne := by rw [Probe.fail, Circuits.get?_failure_of_ne hne, circuits]

/-- After a request that was answered, but not well, a pause follows, or the end. -/
theorem Sound.fails (passed : Passed s deadline link start first acts c found) (hn : n < 3)
    (tried : Tried s.network deadline c.target
      ((gateOf s first c found).2.failureCount c.target.host)
      (first.traffic.callsTo c.target.host) (n + 1) n n acts before)
    (hcall : (callsOf acts)[n]? = some call)
    (hbad : ¬ AnswersWell s.network deadline (first.traffic.callsTo c.target.host + n) call) :
    Sound s deadline link start first
      (acts ++ [⟨now, before, (Probe.pause now deadline c.target (pauses.drop n)
        (fail now c.target { before with traffic := before.traffic.answered })).1⟩]) now
      (Probe.pause now deadline c.target (pauses.drop n)
        (fail now c.target { before with traffic := before.traffic.answered })).1
      (Probe.pause now deadline c.target (pauses.drop n)
        (fail now c.target { before with traffic := before.traffic.answered })).2 :=
  Sound.pause hn (.fail rfl rfl rfl)
    (tried.fail now _ hcall hbad passed.host_ne_empty rfl rfl) passed

end Answers

/-- A request is over, or the deadline has come. -/
theorem Sound.answered {target : Target} {left : List Span} {outcome : Except RequestError Nat}
    {finish : Option Nat}
    (h : Sound s deadline link start first acts now before
      (.requesting target left outcome finish))
    (ready : waitUntil now deadline finish = .nothing) :
    Sound s deadline link start first
      (acts ++ [⟨now, before,
        (step s now deadline before (.requesting target left outcome finish)).1⟩])
      now (step s now deadline before (.requesting target left outcome finish)).1
      (step s now deadline before (.requesting target left outcome finish)).2 := by
  cases h with
  | @requesting c found n call passed hn tried hcall hnow =>
    simp only [step]
    split
    · next hcome =>
      obtain ⟨t, ht, htnow⟩ := hasCome_iff.1 hcome
      unfold conclude
      cases hvalue :
        (s.network.reply call.host (first.traffic.callsTo c.target.host + n)).value with
      | error e =>
          refine Sound.fails passed hn tried hcall ?_
          rintro ⟨status, t', hok, -⟩
          rw [hvalue] at hok
          cases hok
      | ok status =>
          dsimp only
          split
          · next hgood =>
            obtain ⟨hlow, hhigh⟩ := isSuccess_iff.1 hgood
            exact Sound.succeeds passed hn tried hcall
              ⟨status, t, hvalue, hlow, hhigh, ht, Nat.le_trans htnow hnow⟩
          · next hbad =>
            refine Sound.fails passed hn tried hcall ?_
            rintro ⟨status', t', hok, hlow, hhigh, -⟩
            rw [hvalue] at hok
            cases hok
            exact hbad (isSuccess_iff.2 ⟨hlow, hhigh⟩)
    · next hnone =>
      have hlate : deadline ≤ now := (waitUntil_eq_nothing.1 ready).resolve_left hnone
      have hbad : ¬ AnswersWell s.network deadline
          (first.traffic.callsTo c.target.host + n) call := by
        rintro ⟨status, t, -, -, -, ht, hle⟩
        exact hnone (hasCome_iff.2 ⟨t, ht, Nat.le_trans hle hlate⟩)
      have hfailed := tried.fail now before hcall hbad passed.host_ne_empty rfl rfl
      exact .finished ((passed.append _).law
        ((hfailed.silent (.fail rfl rfl rfl)).notAvailable fun _ =>
          ⟨_, List.getLast?_concat .., hlate⟩))

/-- What others do to other hosts does not matter. -/
theorem Law.spared {status : LinkStatus} (h : Law s deadline link start first acts before status)
    (spares : ∀ target, target? link = some target → Spares target.host before scene) :
    Law s deadline link start first acts scene status := by
  unfold Law at h ⊢
  split at h
  · exact h
  · next c hcleared =>
    obtain ⟨found, after, hplace, h⟩ := h
    refine ⟨found, after, hplace, ?_⟩
    have hcircuit := (spares _ (target?_of_cleared hcleared)).circuit
    by_cases hallowed : (gateOf s first c found).1 = true
    · rw [if_pos hallowed] at h ⊢
      exact { h with count := (Circuits.failureCount_congr hcircuit).trans h.count }
    · rw [if_neg hallowed] at h ⊢
      exact h

theorem Sound.spared {stage : Stage} (h : Sound s deadline link start first acts now before stage)
    (spares : ∀ target, target? link = some target → Spares target.host before scene) :
    Sound s deadline link start first acts now scene stage := by
  cases h with
  | fresh none now_eq before_spares =>
      exact .fresh none now_eq fun target ht => (before_spares target ht).trans (spares target ht)
  | lookingUp candidate asks one silent unchanged start_le le now_le before_spares =>
      exact .lookingUp candidate asks one silent unchanged start_le le now_le fun target ht =>
        (before_spares target ht).trans (spares target ht)
  | requesting passed lt tried called now_le =>
      have hspares := spares _ (target?_of_cleared passed.cleared)
      exact .requesting passed lt (tried.spared hspares) called now_le
  | pausing passed lt tried =>
      have hspares := spares _ (target?_of_cleared passed.cleared)
      exact .pausing passed lt (tried.spared hspares)
  | finished law => exact .finished (law.spared spares)

/-- Time passes only as far as the probe lets it. -/
theorem Sound.later {stage : Stage} {due : Option Nat} {later : Nat}
    (h : Sound s deadline link start first acts now scene stage)
    (waits : stage.wait now deadline = .change due) (le : now ≤ later)
    (inTime : ∀ t, due = some t → later ≤ t) :
    Sound s deadline link start first acts later scene stage := by
  cases h with
  | fresh none now_eq spares => cases waits
  | lookingUp candidate asks one silent unchanged start_le hle now_le spares =>
      obtain ⟨-, t, hdue, -, ht, hfinish, -⟩ := waitUntil_eq_change waits
      have hlater := inTime t hdue
      refine .lookingUp candidate asks one silent unchanged (Nat.le_trans start_le le) ?_ ?_ spares
      · exact fun f hf => Nat.le_trans hlater (hfinish f hf)
      · omega
  | requesting passed lt tried called now_le =>
      obtain ⟨-, t, hdue, -, ht, -⟩ := waitUntil_eq_change waits
      exact .requesting passed lt tried called (Nat.le_trans (inTime t hdue) ht)
  | pausing passed lt tried => exact .pausing passed lt tried
  | finished law => cases waits

/-- A pause is over, or the deadline has come. -/
theorem Sound.rested {target : Target} {left : List Span} {finish : Option Nat}
    (h : Sound s deadline link start first acts now before (.pausing target left finish))
    (ready : waitUntil now deadline finish = .nothing) :
    Sound s deadline link start first
      (acts ++ [⟨now, before, (step s now deadline before (.pausing target left finish)).1⟩])
      now (step s now deadline before (.pausing target left finish)).1
      (step s now deadline before (.pausing target left finish)).2 := by
  cases h with
  | @pausing c found n finish passed lt tried =>
    have hwithin : Within c.target.host before before := ⟨rfl, rfl, fun _ _ => rfl⟩
    simp only [step]
    split
    · exact Sound.attempt lt hwithin tried fun after => passed.append _
    · next hnone =>
      have hlate : deadline ≤ now := (waitUntil_eq_nothing.1 ready).resolve_left hnone
      exact .finished ((passed.append _).law ((tried.silent hwithin).notAvailable fun _ =>
        ⟨_, List.getLast?_concat .., hlate⟩))

end Steps

namespace Course

variable {s : Setting} {deadline : Nat} {link : String} {start : Nat} {first : Scene}
variable {acts : List Act} {now : Nat} {scene : Scene} {stage : Stage}

theorem sound (h : Course s deadline link start first acts now scene stage)
    (range : ∀ host, first.circuits.failureCount host ≤ Circuit.mostFailures) :
    Sound s deadline link start first acts now scene stage := by
  induction h with
  | begin => exact .fresh rfl rfl fun target _ => .refl ..
  | @act acts now scene stage course going ready ih =>
      cases stage with
      | fresh link' =>
          cases ih with
          | fresh none now_eq spares =>
              subst none
              exact Sound.begin now_eq spares range
      | lookingUp target answer finish => exact ih.lookedUp ready range
      | requesting target left outcome finish => exact ih.answered ready
      | pausing target left finish => exact ih.rested ready
      | finished status => cases going
  | other course spares ih => exact ih.spared spares
  | time course waits le inTime ih => exact ih.later waits le inTime

/-- The setting of that network. -/
def sampleSetting : Setting where
  network :=
    { lookup := fun _ => ⟨.ok [.v4 (Address.ofOctets 8 8 8 8)], some 5⟩
      reply := fun _ k => if k = 0 then ⟨.ok 503, some 10⟩ else ⟨.ok 200, some 20⟩ }
  policy := .standard

/-- Nothing has been done, and the clock moves by the waits only. -/
def sampleScene : Scene := ⟨.none, .empty, .ofKind .manual⟩

theorem candidate?_root : Link.candidate? "." =
    some ⟨Link.secureScheme, [], [], some (.domain ['.']), none, .segments [[]], none, none⟩ :=
  (Link.candidate?_of_host rfl (by decide) (by decide) Url.Host.parse?_root).trans (by decide)

/-- The root of all domain names has failed three times at the beginning of time. -/
def failedScene : Scene := ⟨.none, Table.empty.insert "." ⟨3, .zero⟩, .ofKind .real⟩

end Course

end Reachability.Probe
