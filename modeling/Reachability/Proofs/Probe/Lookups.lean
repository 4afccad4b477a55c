import Reachability.Proofs.Link.Host
import Reachability.Proofs.Probe.Course

set_option autoImplicit false

/-! # What a probe has looked up

A probe has a name looked up in its first turn, if the guard asks for it, and never again
(`Course.lookupsOf_eq`). So a link that spells a version 4 address is judged by this address alone,
and for any other link the name that is its host is looked up once (`Link.host_classified`). -/

namespace Reachability

/-- The names that a verdict asks for. -/
def Guard.Verdict.names : Verdict → List String
  | .decided _ => []
  | .ask name => [name]

namespace Probe

/-- The names looked up in a turn. -/
def Act.lookups (a : Act) : List String := added a.before.traffic.lookups a.after.traffic.lookups

/-- The names looked up in some turns. -/
def lookupsOf (acts : List Act) : List String := acts.flatMap Act.lookups

/-- The probe of a link has these names looked up, in whatever setting and however it goes. -/
def LooksUp (link : String) (names : List String) : Prop :=
  ∀ s deadline start first acts now scene stage,
    Course s deadline link start first acts now scene stage → acts ≠ [] → lookupsOf acts = names

/-- Whether a probe has not had its first turn. -/
def Stage.isFresh : Stage → Bool
  | .fresh _ => true
  | _ => false

/-! ## One turn -/

section Turns

variable (s : Setting) (now deadline : Nat) (target : Target) (left : List Span) (scene : Scene)

theorem attempt_lookups : (attempt s now deadline target left scene).2.isFresh = false ∧
    (attempt s now deadline target left scene).1.traffic.lookups = scene.traffic.lookups := by
  unfold attempt
  split
  · exact ⟨rfl, rfl⟩
  · exact ⟨rfl, rfl⟩

theorem gate_lookups : (gate s now deadline target scene).2.isFresh = false ∧
    (gate s now deadline target scene).1.traffic.lookups = scene.traffic.lookups := by
  unfold gate
  dsimp only
  split
  · exact attempt_lookups ..
  · exact ⟨rfl, rfl⟩

theorem pause_lookups : (pause now deadline target left scene).2.isFresh = false ∧
    (pause now deadline target left scene).1.traffic.lookups = scene.traffic.lookups := by
  unfold pause
  split
  · split
    · exact ⟨rfl, rfl⟩
    · exact ⟨rfl, rfl⟩
  · exact ⟨rfl, rfl⟩

theorem conclude_lookups (outcome : Except RequestError Nat) :
    (conclude now deadline target left outcome scene).2.isFresh = false ∧
      (conclude now deadline target left outcome scene).1.traffic.lookups =
        scene.traffic.lookups := by
  unfold conclude
  cases outcome with
  | error e => exact pause_lookups ..
  | ok status =>
      dsimp only
      split
      · exact ⟨rfl, rfl⟩
      · exact pause_lookups ..

/-- The first turn has looked up what the guard asks for. -/
theorem begin_lookups {link : String} {u : Url} (h : Link.candidate? link = some u) :
    (begin s now deadline link scene).2.isFresh = false ∧
      (begin s now deadline link scene).1.traffic.lookups =
        (Guard.judge u.namedHost?).names ++ scene.traffic.lookups := by
  unfold begin
  rw [h]
  dsimp only
  cases Guard.judge u.namedHost? with
  | decided blocked =>
      cases blocked with
      | true => exact ⟨rfl, rfl⟩
      | false => exact gate_lookups ..
  | ask name => exact ⟨rfl, rfl⟩

/-- A later turn has nothing looked up. -/
theorem step_lookups {stage : Stage} (h : stage.isFresh = false) :
    (step s now deadline scene stage).2.isFresh = false ∧
      (step s now deadline scene stage).1.traffic.lookups = scene.traffic.lookups := by
  cases stage with
  | fresh link => cases h
  | lookingUp target answer finish =>
      simp only [step]
      split
      · exact gate_lookups ..
      · exact ⟨rfl, rfl⟩
  | requesting target left outcome finish =>
      simp only [step]
      split
      · exact conclude_lookups ..
      · exact ⟨rfl, rfl⟩
  | pausing target left finish =>
      simp only [step]
      split
      · exact attempt_lookups ..
      · exact ⟨rfl, rfl⟩
  | finished status => exact ⟨rfl, rfl⟩

end Turns

/-! ## A whole course -/

theorem added_names (verdict : Guard.Verdict) (l : List String) :
    added l (verdict.names ++ l) = verdict.names := by
  cases verdict with
  | decided blocked => exact added_self l
  | ask name => exact added_cons name l

variable {s : Setting} {now deadline start : Nat} {link : String} {first scene : Scene}
variable {acts : List Act} {stage : Stage}

/-- The names that the guard asks for are looked up in the first turn, and nothing is looked up
    after it. -/
theorem Course.lookupsOf_eq {u : Url} (hurl : Link.candidate? link = some u)
    (h : Course s deadline link start first acts now scene stage) :
    (acts = [] ∧ stage = .fresh link) ∨
      (stage.isFresh = false ∧ lookupsOf acts = (Guard.judge u.namedHost?).names) := by
  induction h with
  | begin => exact .inl ⟨rfl, rfl⟩
  | @act acts now scene stage course going ready ih =>
      rcases ih with ⟨rfl, rfl⟩ | ⟨hstage, hacts⟩
      · obtain ⟨hfresh, hlookups⟩ := begin_lookups s now deadline scene hurl
        refine .inr ⟨hfresh, ?_⟩
        rw [List.nil_append, lookupsOf, List.flatMap_singleton, Act.lookups]
        exact (congrArg (added _) hlookups).trans (added_names _ _)
      · obtain ⟨hfresh, hlookups⟩ := step_lookups s now deadline scene hstage
        refine .inr ⟨hfresh, ?_⟩
        have hnone : lookupsOf [⟨now, scene, (step s now deadline scene stage).1⟩] = [] := by
          rw [lookupsOf, List.flatMap_singleton, Act.lookups, hlookups, added_self]
        rw [lookupsOf, List.flatMap_append]
        exact (congrArg₂ (· ++ ·) hacts hnone).trans (List.append_nil _)
  | other course spares ih => exact ih
  | time course waits le inTime ih => exact ih

theorem looksUp_of_judge {u : Url} {verdict : Guard.Verdict} (hurl : Link.candidate? link = some u)
    (hjudge : Guard.judge u.namedHost? = verdict) : LooksUp link verdict.names := by
  intro s deadline start first acts now scene stage course hacts
  rcases course.lookupsOf_eq hurl with ⟨hnil, -⟩ | ⟨-, hlookups⟩
  · exact absurd hnil hacts
  · rw [hlookups, hjudge]

end Probe

/-! ## The two kinds of links -/

namespace Link

/-- The host of a link that gives a URL is decided by the ASCII form of the name in the link. If
    that spells a version 4 address, in whatever way, the host is this address, the guard decides by
    it alone, and the probe has nothing looked up. If it spells none, it is the host, no reader of
    addresses makes anything of it, and the probe has it looked up, just once and as it is. -/
theorem host_classified (link : String) (u : Url) (h : candidate? link = some u) :
    ∃ name, Url.asciiName? (Link.name link) = some name ∧
      ((∃ a, Url.Spells name a ∧ u.host = some (.address (.v4 a)) ∧
          Guard.judge u.namedHost? = .decided (Address.isForbidden (.v4 a)) ∧
          Probe.LooksUp link []) ∨
        ((∀ a, ¬ Url.Spells name a) ∧ u.host = some (.domain name) ∧ Address.parse? name = none ∧
          Guard.judge u.namedHost? = .ask (String.ofList name) ∧
          Probe.LooksUp link [String.ofList name])) := by
  obtain ⟨hcolon, host, hread, hhost, hnamed⟩ := parse?_name h
  obtain ⟨name, hname, hcases⟩ := Url.Host.parse?_cases hcolon hread
  refine ⟨name, hname, ?_⟩
  rcases hcases with ⟨a, ha, rfl⟩ | ⟨hno, hplain, rfl⟩
  · have hjudge : Guard.judge u.namedHost? = .decided (Address.isForbidden (.v4 a)) := by
      rw [hnamed, Guard.judge]
    exact .inl ⟨a, ha, hhost, hjudge, Probe.looksUp_of_judge h hjudge⟩
  · have hjudge : Guard.judge u.namedHost? = .ask (String.ofList name) := by
      rw [hnamed, Guard.judge, hplain]
    exact .inr ⟨hno, hhost, hplain, hjudge, Probe.looksUp_of_judge h hjudge⟩

/-- The name of this link is an escaped point, so its host is the root of all domain names, and this
    is what is looked up. -/
theorem host_classified_escaped_root :
    ∃ u, candidate? "user@%2E" = some u ∧ u.host = some (.domain ['.']) ∧
      Guard.judge u.namedHost? = .ask "." ∧ Probe.LooksUp "user@%2E" ["."] := by
  have hread : Url.Host.parse? "%2E".toList = some (.domain ['.']) := by
    have hdecoded : Url.percentDecode (Text.utf8 "%2E".toList) = Text.utf8 ['.'] := by decide
    have hascii : Domain.toAscii? ['.'] = some ['.'] := by decide
    have hworded : Url.endsInNumber ['.'] = false := by decide
    rw [Url.Host.parse?, if_neg (by decide), hdecoded, Text.ofBytes?_utf8]
    simp [hascii, hworded]
  have hbare : bare? "user@%2E".toList = some "user@%2E".toList := by decide
  have hurl := candidate?_of_host hbare (by decide) (by decide) hread
  obtain ⟨name, -, hcases⟩ := host_classified _ _ hurl
  refine ⟨_, hurl, rfl, ?_⟩
  rcases hcases with ⟨a, -, haddress, -⟩ | ⟨-, hname, -, hjudge, hlooks⟩
  · cases haddress
  · cases hname
    exact ⟨hjudge, hlooks⟩

end Link

end Reachability
