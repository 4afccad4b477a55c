import Reachability.Proofs.Guard
import Reachability.Proofs.Probe.Course

set_option autoImplicit false

/-! # Whom a probe asks

A probe makes its requests to one target, and before its deadline. It has a target that it may ask
only once the guard has let the URL of its link through, by the answer that the probe was given
itself (`step_keeps`). -/

namespace Reachability.Probe

/-- Whom a probe may ask that the guard has let through. -/
def Stage.target? : Stage → Option Target
  | .requesting target _ _ _ => some target
  | .pausing target _ _ => some target
  | _ => none

/-- What is known of the target of a probe, and of the URL that was let through to get it. -/
def Stage.Allowed (link : String) (cleared : Url → Prop) : Stage → Prop
  | .fresh l => l = link
  | .lookingUp target answer _ => ∃ url, Link.candidate? link = some url ∧ target = .ofUrl url ∧
      (Guard.blocks answer = false → cleared url)
  | .requesting target _ _ _ =>
      ∃ url, Link.candidate? link = some url ∧ target = .ofUrl url ∧ cleared url
  | .pausing target _ _ =>
      ∃ url, Link.candidate? link = some url ∧ target = .ofUrl url ∧ cleared url
  | .finished _ => True

/-- No request is made but one to the target, before the deadline. -/
def Asks (now deadline : Nat) (target : Target) (before after : Scene) : Prop :=
  after.traffic.calls = before.traffic.calls ∨
    now < deadline ∧
      after.traffic.calls = ⟨now, target.host, target.url⟩ :: before.traffic.calls

/-- The probe goes on with its target, or comes to its end. -/
def Stage.Keeps (target : Target) (stage : Stage) : Prop :=
  stage.target? = some target ∨ ∃ status, stage = .finished status

variable {link : String} {cleared cleared' : Url → Prop}

theorem Stage.Allowed.mono {stage : Stage} (h : stage.Allowed link cleared)
    (himp : ∀ url, cleared url → cleared' url) : stage.Allowed link cleared' := by
  cases stage with
  | fresh l => exact h
  | lookingUp target answer finish =>
      obtain ⟨url, hurl, htarget, hpass⟩ := h
      exact ⟨url, hurl, htarget, fun hanswer => himp url (hpass hanswer)⟩
  | requesting target left outcome finish =>
      obtain ⟨url, hurl, htarget, hcleared⟩ := h
      exact ⟨url, hurl, htarget, himp url hcleared⟩
  | pausing target left finish =>
      obtain ⟨url, hurl, htarget, hcleared⟩ := h
      exact ⟨url, hurl, htarget, himp url hcleared⟩
  | finished status => trivial

theorem Stage.allowed_of_keeps {url : Url} {stage : Stage} (h : stage.Keeps (.ofUrl url))
    (hurl : Link.candidate? link = some url) (hcleared : cleared url) :
    stage.Allowed link cleared := by
  rcases h with htarget | ⟨status, rfl⟩
  · cases stage with
    | requesting target left outcome finish =>
        cases htarget
        exact ⟨url, hurl, rfl, hcleared⟩
    | pausing target left finish =>
        cases htarget
        exact ⟨url, hurl, rfl, hcleared⟩
    | _ => cases htarget
  · trivial

section Steps

variable (s : Setting) (now deadline : Nat) (target : Target) (left : List Span) (scene : Scene)

theorem attempt_keeps : (attempt s now deadline target left scene).2.Keeps target ∧
    Asks now deadline target scene (attempt s now deadline target left scene).1 := by
  unfold attempt
  split
  · exact ⟨.inr ⟨_, rfl⟩, .inl rfl⟩
  · next hgo =>
    rw [not_or, Nat.not_le] at hgo
    exact ⟨.inl rfl, .inr ⟨hgo.1, rfl⟩⟩

theorem gate_keeps : (gate s now deadline target scene).2.Keeps target ∧
    Asks now deadline target scene (gate s now deadline target scene).1 := by
  unfold gate
  dsimp only
  split
  · exact attempt_keeps ..
  · exact ⟨.inr ⟨_, rfl⟩, .inl rfl⟩

theorem pause_keeps : (pause now deadline target left scene).2.Keeps target ∧
    (pause now deadline target left scene).1.traffic = scene.traffic := by
  unfold pause
  split
  · split
    · exact ⟨.inr ⟨_, rfl⟩, rfl⟩
    · exact ⟨.inl rfl, rfl⟩
  · exact ⟨.inr ⟨_, rfl⟩, rfl⟩

theorem conclude_keeps (outcome : Except RequestError Nat) :
    (conclude now deadline target left outcome scene).2.Keeps target ∧
      (conclude now deadline target left outcome scene).1.traffic.calls = scene.traffic.calls := by
  have hpause : ∀ scene' : Scene, scene'.traffic.calls = scene.traffic.calls →
      (pause now deadline target left scene').2.Keeps target ∧
        (pause now deadline target left scene').1.traffic.calls = scene.traffic.calls := by
    intro scene' hcalls
    obtain ⟨hkeeps, htraffic⟩ := pause_keeps now deadline target left scene'
    exact ⟨hkeeps, by rw [htraffic, hcalls]⟩
  unfold conclude
  cases outcome with
  | error e => exact hpause _ rfl
  | ok status =>
      dsimp only
      split
      · exact ⟨.inr ⟨_, rfl⟩, rfl⟩
      · exact hpause _ rfl

/-- A probe begins by coming to its end, by asking a host that the guard lets through at once, or by
    having a name looked up. -/
theorem begin_cases (link : String) :
    begin s now deadline link scene = (scene, .failed) ∨
      (∃ url, Link.candidate? link = some url ∧ Guard.judge url.namedHost? = .decided false ∧
        begin s now deadline link scene = gate s now deadline (.ofUrl url) scene) ∨
      ∃ url name, Link.candidate? link = some url ∧ Guard.judge url.namedHost? = .ask name ∧
        begin s now deadline link scene =
          ({ scene with traffic := scene.traffic.addLookup name },
            .lookingUp (.ofUrl url) (s.network.lookup name).value
              ((s.network.lookup name).finish now)) := by
  unfold begin
  split
  · exact .inl rfl
  · next url hurl =>
    dsimp only
    split
    · exact .inl rfl
    · next hjudge => exact .inr (.inl ⟨url, hurl, hjudge, rfl⟩)
    · next name hjudge => exact .inr (.inr ⟨url, name, hurl, hjudge, rfl⟩)

end Steps

/-- A turn of a probe: what is known of its target stays so, and if it makes a request, it is one to
    its target, whose URL has been let through, before the deadline. -/
theorem step_keeps {s : Setting} {now deadline : Nat} {scene : Scene} {stage : Stage}
    (h : stage.Allowed link cleared)
    (asks : stage = .fresh link → ∀ url, Link.candidate? link = some url →
      Guard.isBlocked (fun name => (s.network.lookup name).value) url.namedHost? = false →
      cleared url) :
    (step s now deadline scene stage).2.Allowed link cleared ∧
      ((step s now deadline scene stage).1.traffic.calls = scene.traffic.calls ∨
        ∃ url, Link.candidate? link = some url ∧ cleared url ∧
          Asks now deadline (.ofUrl url) scene (step s now deadline scene stage).1) := by
  have hgate : ∀ url, Link.candidate? link = some url → cleared url →
      (gate s now deadline (.ofUrl url) scene).2.Allowed link cleared ∧
        ((gate s now deadline (.ofUrl url) scene).1.traffic.calls = scene.traffic.calls ∨
          ∃ url', Link.candidate? link = some url' ∧ cleared url' ∧
            Asks now deadline (.ofUrl url') scene (gate s now deadline (.ofUrl url) scene).1) := by
    intro url hurl hcleared
    obtain ⟨hkeeps, hasks⟩ := gate_keeps s now deadline (.ofUrl url) scene
    exact ⟨Stage.allowed_of_keeps hkeeps hurl hcleared, .inr ⟨url, hurl, hcleared, hasks⟩⟩
  cases stage with
  | fresh l =>
      obtain rfl : l = link := h
      rw [step]
      rcases begin_cases s now deadline scene l with
        hend | ⟨url, hurl, hjudge, hgo⟩ | ⟨url, name, hurl, hjudge, hask⟩
      · rw [hend]
        exact ⟨trivial, .inl rfl⟩
      · rw [hgo]
        exact hgate url hurl (asks rfl url hurl (by rw [Guard.isBlocked, hjudge]))
      · rw [hask]
        refine ⟨⟨url, hurl, rfl, fun hanswer => asks rfl url hurl ?_⟩, .inl rfl⟩
        rw [Guard.isBlocked, hjudge]
        exact hanswer
  | lookingUp target answer finish =>
      obtain ⟨url, hurl, rfl, hpass⟩ := h
      simp only [step]
      split
      · next hgo =>
        rw [Bool.and_eq_true, Bool.not_eq_true'] at hgo
        exact hgate url hurl (hpass hgo.2)
      · exact ⟨trivial, .inl rfl⟩
  | requesting target left outcome finish =>
      obtain ⟨url, hurl, rfl, hcleared⟩ := h
      simp only [step]
      split
      · obtain ⟨hkeeps, hcalls⟩ := conclude_keeps now deadline (.ofUrl url) left scene outcome
        exact ⟨Stage.allowed_of_keeps hkeeps hurl hcleared, .inl hcalls⟩
      · exact ⟨trivial, .inl rfl⟩
  | pausing target left finish =>
      obtain ⟨url, hurl, rfl, hcleared⟩ := h
      simp only [step]
      split
      · obtain ⟨hkeeps, hasks⟩ := attempt_keeps s now deadline (.ofUrl url) left scene
        exact ⟨Stage.allowed_of_keeps hkeeps hurl hcleared, .inr ⟨url, hurl, hcleared, hasks⟩⟩
      · exact ⟨trivial, .inl rfl⟩
  | finished status => exact ⟨trivial, .inl rfl⟩

end Reachability.Probe
