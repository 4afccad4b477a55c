import Reachability.Proofs.Probe.Stages
import Reachability.Proofs.Probe.Target

set_option autoImplicit false

/-! # What a probe comes to, foretold

If a host may be asked when a probe of it begins, and nobody else asks it, what the probe comes to
is settled by what the network answers: `verdict` tells it from the requests and the failures so
far. What is left of a probe at each of its stages comes to the same (`Stage.Heads`), as long as the
deadline has not come, however late its turns are and whatever becomes of other hosts. So probes one
after the other come to the same in any order (`InTurn.decided`). -/

namespace Reachability.Probe

/-! ## The verdict -/

/-- Whether a request succeeded. -/
def isGood : Except RequestError Nat → Bool
  | .ok status => isSuccess status
  | .error _ => false

/-- What comes of attempts at a host, one for each pause left, after `k` requests and with `n`
    failures: the status, and the failures of the host in the end. -/
def tries (network : Network) (host : String) : List Span → Nat → Nat → LinkStatus × Nat
  | [], _, n => (.notAvailable, n)
  | _ :: left, k, n =>
    if isGood (network.reply host k).value then (.available, 0)
    else tries network host left (k + 1) (min (n + 1) Circuit.mostFailures)

/-- What comes of them when the present attempt, which is among the requests, has its outcome. -/
def triesAfter (network : Network) (host : String) (outcome : Except RequestError Nat)
    (left : List Span) (k n : Nat) : LinkStatus × Nat :=
  if isGood outcome then (.available, 0)
  else tries network host left.tail k (min (n + 1) Circuit.mostFailures)

/-- What the probe of a link comes to that begins with a scene: the status, and the failures of its
    host in the end. -/
def verdict (network : Network) (scene : Scene) (link : String) : LinkStatus × Nat :=
  match Link.candidate? link with
  | none => (.notAvailable, 0)
  | some url =>
    let host := (Target.ofUrl url).host
    if Guard.isBlocked (fun name => (network.lookup name).value) url.namedHost? then
      (.notAvailable, scene.circuits.failureCount host)
    else
      tries network host pauses (scene.traffic.callsTo host) (scene.circuits.failureCount host)

/-- The host of a link, if it has one, has fewer failures than open a circuit. -/
def Below (policy : CircuitPolicy) (scene : Scene) (link : String) : Prop :=
  ∀ target, target? link = some target →
    scene.circuits.failureCount target.host < policy.threshold

/-- Two links do not have one host. -/
def Apart (link link' : String) : Prop :=
  ∀ target target', target? link = some target → target? link' = some target' →
    target.host ≠ target'.host

/-- The host of a link, if it has one, is left alone. -/
def SparesLink (link : String) (before after : Scene) : Prop :=
  ∀ target, target? link = some target → Spares target.host before after

/-- A probe at this stage is one of a link. -/
abbrev Stage.IsOf (link : String) (stage : Stage) : Prop := stage.Allowed link fun _ => True

/-- What is left of the probe of a link comes to this verdict. -/
def Stage.Heads (s : Setting) (link : String) (v : LinkStatus × Nat) (scene : Scene) :
    Stage → Prop
  | .fresh _ => verdict s.network scene link = v ∧ Below s.policy scene link
  | .lookingUp target answer _ =>
    (if Guard.blocks answer then (.notAvailable, scene.circuits.failureCount target.host)
      else tries s.network target.host pauses (scene.traffic.callsTo target.host)
        (scene.circuits.failureCount target.host)) = v ∧ Below s.policy scene link
  | .requesting target left outcome _ =>
    triesAfter s.network target.host outcome left (scene.traffic.callsTo target.host)
      (scene.circuits.failureCount target.host) = v
  | .pausing target left _ =>
    tries s.network target.host left (scene.traffic.callsTo target.host)
      (scene.circuits.failureCount target.host) = v
  | .finished status => v.1 = status ∧ ∀ target, Probe.target? link = some target →
      scene.circuits.failureCount target.host = v.2

section Verdict

variable {s : Setting} {network : Network} {link link' : String} {v : LinkStatus × Nat}
  {scene scene' : Scene} {stage : Stage} {url : Url}

theorem target?_of_candidate (h : Link.candidate? link = some url) :
    target? link = some (.ofUrl url) := by
  rw [target?, h, Option.map_some]

theorem verdict_of_none (h : Link.candidate? link = none) :
    verdict network scene link = (.notAvailable, 0) := by
  rw [verdict, h]

theorem verdict_of_blocked (h : Link.candidate? link = some url)
    (blocked : Guard.isBlocked (fun name => (network.lookup name).value) url.namedHost? = true) :
    verdict network scene link
      = (.notAvailable, scene.circuits.failureCount (Target.ofUrl url).host) := by
  simp only [verdict, h, blocked, if_true]

theorem verdict_of_free (h : Link.candidate? link = some url)
    (free : Guard.isBlocked (fun name => (network.lookup name).value) url.namedHost? = false) :
    verdict network scene link = tries network (Target.ofUrl url).host pauses
      (scene.traffic.callsTo (Target.ofUrl url).host)
      (scene.circuits.failureCount (Target.ofUrl url).host) := by
  simp only [verdict, h, free, Bool.false_eq_true, if_false]

/-- Of the failures and the requests so far, only those of the host of the link count. -/
theorem verdict_congr (spares : SparesLink link scene scene') :
    verdict network scene' link = verdict network scene link := by
  cases hurl : Link.candidate? link with
  | none => rw [verdict_of_none hurl, verdict_of_none hurl]
  | some url =>
      obtain ⟨hcircuit, hcalls⟩ := spares _ (target?_of_candidate hurl)
      simp only [verdict, hurl, hcalls, Circuits.failureCount_congr hcircuit]

theorem Below.congr {policy : CircuitPolicy} (h : Below policy scene link)
    (spares : SparesLink link scene scene') : Below policy scene' link := by
  intro target htarget
  rw [Circuits.failureCount_congr (spares target htarget).circuit]
  exact h target htarget

/-- What becomes of other hosts does not change what a probe comes to. -/
theorem Stage.Heads.congr (h : stage.Heads s link v scene) (isOf : stage.IsOf link)
    (spares : SparesLink link scene scene') : stage.Heads s link v scene' := by
  cases stage with
  | fresh l => exact ⟨(verdict_congr spares).trans h.1, h.2.congr spares⟩
  | lookingUp target answer finish =>
      obtain ⟨url, hurl, rfl, -⟩ := isOf
      obtain ⟨hcircuit, hcalls⟩ := spares _ (target?_of_candidate hurl)
      refine ⟨?_, h.2.congr spares⟩
      rw [hcalls, Circuits.failureCount_congr hcircuit]
      exact h.1
  | requesting target left outcome finish =>
      obtain ⟨url, hurl, rfl, -⟩ := isOf
      obtain ⟨hcircuit, hcalls⟩ := spares _ (target?_of_candidate hurl)
      simp only [Heads, hcalls, Circuits.failureCount_congr hcircuit]
      exact h
  | pausing target left finish =>
      obtain ⟨url, hurl, rfl, -⟩ := isOf
      obtain ⟨hcircuit, hcalls⟩ := spares _ (target?_of_candidate hurl)
      simp only [Heads, hcalls, Circuits.failureCount_congr hcircuit]
      exact h
  | finished status =>
      refine ⟨h.1, fun target htarget => ?_⟩
      rw [Circuits.failureCount_congr (spares target htarget).circuit]
      exact h.2 target htarget

end Verdict

/-! ## The turns of a probe -/

section Turns

variable {s : Setting} {now deadline : Nat} {link other : String} {v : LinkStatus × Nat}
  {scene : Scene} {stage : Stage} {target : Target} {left : List Span} {url : Url}

theorem callsTo_addCall (t : Traffic) (c : Call) (host : String) :
    (t.addCall c).callsTo host = if c.host = host then t.callsTo host + 1 else t.callsTo host := by
  rw [Traffic.callsTo, Traffic.callsTo, Traffic.addCall, List.filter_cons]
  split
  · next h => rw [if_pos (of_decide_eq_true h), List.length_cons]
  · next h => rw [if_neg fun heq => h (decide_eq_true heq)]

/-- A probe at its end needs to be right about its own host only. -/
theorem heads_finished (htarget : target? link = some target)
    (count : scene.circuits.failureCount target.host = v.2) :
    (Stage.finished v.1).Heads s link v scene := by
  refine ⟨rfl, fun target' htarget' => ?_⟩
  rw [htarget] at htarget'
  cases htarget'
  exact count

theorem heads_attempt (htarget : target? link = some target) (intime : now < deadline)
    (h : tries s.network target.host left (scene.traffic.callsTo target.host)
      (scene.circuits.failureCount target.host) = v) :
    (attempt s now deadline target left scene).2.Heads s link v
      (attempt s now deadline target left scene).1 := by
  unfold attempt
  cases left with
  | nil =>
      rw [if_pos (.inr rfl), ← h]
      exact heads_finished htarget rfl
  | cons d rest =>
      rw [if_neg (not_or.2 ⟨Nat.not_le.2 intime, List.cons_ne_nil d rest⟩)]
      show triesAfter s.network target.host _ (d :: rest) (Traffic.callsTo _ target.host) _ = v
      rw [callsTo_addCall, if_pos rfl]
      exact h

theorem heads_gate (hurl : Link.candidate? link = some url) (intime : now < deadline)
    (below : Below s.policy scene link)
    (h : tries s.network (Target.ofUrl url).host pauses
      (scene.traffic.callsTo (Target.ofUrl url).host)
      (scene.circuits.failureCount (Target.ofUrl url).host) = v) :
    (gate s now deadline (.ofUrl url) scene).2.Heads s link v
      (gate s now deadline (.ofUrl url) scene).1 := by
  have htarget := target?_of_candidate hurl
  have hallow := Circuits.allow_of_below (scene.clock.reading now) (host_ne_empty htarget)
    (below _ htarget)
  unfold gate
  rw [hallow]
  exact heads_attempt htarget intime h

theorem heads_pause (htarget : target? link = some target) (intime : now < deadline)
    (h : tries s.network target.host left.tail (scene.traffic.callsTo target.host)
      (scene.circuits.failureCount target.host) = v) :
    (pause now deadline target left scene).2.Heads s link v
      (pause now deadline target left scene).1 := by
  have hend : tries s.network target.host [] (scene.traffic.callsTo target.host)
      (scene.circuits.failureCount target.host) = v →
      Stage.failed.Heads s link v scene := by
    rintro rfl
    exact heads_finished htarget rfl
  cases left with
  | nil => exact hend h
  | cons d rest =>
      rw [List.tail_cons] at h
      simp only [pause]
      split
      · next hstop =>
        rw [hstop.resolve_right (Nat.not_le.2 intime)] at h
        exact hend h
      · exact h

theorem heads_conclude {outcome : Except RequestError Nat} (htarget : target? link = some target)
    (intime : now < deadline)
    (h : triesAfter s.network target.host outcome left (scene.traffic.callsTo target.host)
      (scene.circuits.failureCount target.host) = v) :
    (conclude now deadline target left outcome scene).2.Heads s link v
      (conclude now deadline target left outcome scene).1 := by
  have hne := host_ne_empty htarget
  have hfail : isGood outcome = false →
      (pause now deadline target left
        (fail now target { scene with traffic := scene.traffic.answered })).2.Heads s link v
        (pause now deadline target left
          (fail now target { scene with traffic := scene.traffic.answered })).1 := by
    intro hbad
    refine heads_pause htarget intime ?_
    rw [triesAfter, hbad, if_neg Bool.false_ne_true] at h
    rw [fail, Circuits.failureCount_failure hne]
    exact h
  unfold conclude
  cases outcome with
  | error e => exact hfail rfl
  | ok status =>
      dsimp only
      split
      · next hgood =>
        have hv : (.available, 0) = v := by rwa [triesAfter, isGood, if_pos hgood] at h
        rw [← hv]
        exact heads_finished htarget (Circuits.failureCount_success hne)
      · next hbad => exact hfail (Bool.not_eq_true _ ▸ hbad)

theorem heads_begin (intime : now < deadline) (below : Below s.policy scene link) :
    (begin s now deadline link scene).2.Heads s link (verdict s.network scene link)
      (begin s now deadline link scene).1 := by
  unfold begin
  cases hurl : Link.candidate? link with
  | none =>
      rw [verdict_of_none hurl]
      refine ⟨rfl, fun target htarget => ?_⟩
      rw [target?, hurl] at htarget
      cases htarget
  | some url =>
      dsimp only
      split
      · next hjudge =>
        rw [verdict_of_blocked hurl (by rw [Guard.isBlocked, hjudge])]
        exact heads_finished (target?_of_candidate hurl) rfl
      · next hjudge =>
        exact heads_gate hurl intime below
          (verdict_of_free hurl (by rw [Guard.isBlocked, hjudge])).symm
      · next name hjudge =>
        refine ⟨?_, below⟩
        cases hanswer : Guard.blocks (s.network.lookup name).value with
        | true =>
            refine (verdict_of_blocked hurl ?_).symm
            rwa [Guard.isBlocked, hjudge]
        | false =>
            refine (verdict_of_free hurl ?_).symm
            rwa [Guard.isBlocked, hjudge]

/-- A turn before the deadline does not change what a probe comes to. -/
theorem Stage.Heads.step (h : stage.Heads s link v scene) (isOf : stage.IsOf link)
    (going : stage.status? = none) (ready : stage.wait now deadline = .nothing)
    (intime : now < deadline) :
    (Probe.step s now deadline scene stage).2.Heads s link v
      (Probe.step s now deadline scene stage).1 := by
  have hcome : ∀ {finish : Option Nat}, waitUntil now deadline finish = .nothing →
      hasCome finish now = true := fun hwait =>
    (waitUntil_eq_nothing.1 hwait).resolve_right (Nat.not_le.2 intime)
  cases stage with
  | fresh l =>
      obtain rfl : l = link := isOf
      obtain ⟨rfl, hbelow⟩ := h
      exact heads_begin intime hbelow
  | lookingUp target answer finish =>
      obtain ⟨url, hurl, rfl, -⟩ := isOf
      obtain ⟨hv, hbelow⟩ := h
      rw [Probe.step, hcome ready, Bool.true_and]
      cases hanswer : Guard.blocks answer with
      | true =>
          rw [hanswer, if_pos rfl] at hv
          rw [← hv]
          exact heads_finished (target?_of_candidate hurl) rfl
      | false =>
          rw [hanswer, if_neg Bool.false_ne_true] at hv
          exact heads_gate hurl intime hbelow hv
  | requesting target left outcome finish =>
      obtain ⟨url, hurl, rfl, -⟩ := isOf
      rw [Probe.step, if_pos (hcome ready)]
      exact heads_conclude (target?_of_candidate hurl) intime h
  | pausing target left finish =>
      obtain ⟨url, hurl, rfl, -⟩ := isOf
      rw [Probe.step, if_pos (hcome ready)]
      exact heads_attempt (target?_of_candidate hurl) intime h
  | finished status => cases going

/-! ## What a turn does to other hosts -/

theorem spares_attempt (hne : target.host ≠ other) :
    Spares other scene (attempt s now deadline target left scene).1 := by
  unfold attempt
  split
  · exact .refl other scene
  · exact ⟨rfl, by dsimp only; rw [callsTo_addCall, if_neg hne]⟩

theorem spares_gate (hne : target.host ≠ other) :
    Spares other scene (gate s now deadline target scene).1 := by
  have hallow : Spares other scene { scene with
      circuits := (scene.circuits.allow s.policy (scene.clock.reading now) target.host).2 } :=
    ⟨Circuits.get?_allow_of_ne hne.symm, rfl⟩
  unfold gate
  dsimp only
  split
  · exact hallow.trans (spares_attempt hne)
  · exact hallow

theorem spares_pause : Spares other scene (pause now deadline target left scene).1 := by
  unfold pause
  split
  · split <;> exact ⟨rfl, rfl⟩
  · exact .refl other scene

theorem spares_fail (hne : target.host ≠ other) : Spares other scene (fail now target scene) :=
  ⟨Circuits.get?_failure_of_ne hne.symm, rfl⟩

theorem spares_conclude (hne : target.host ≠ other) (outcome : Except RequestError Nat) :
    Spares other scene (conclude now deadline target left outcome scene).1 := by
  have hanswered : Spares other scene { scene with traffic := scene.traffic.answered } :=
    ⟨rfl, rfl⟩
  have hfail : Spares other scene (pause now deadline target left
      (fail now target { scene with traffic := scene.traffic.answered })).1 :=
    (hanswered.trans (spares_fail hne)).trans spares_pause
  unfold conclude
  cases outcome with
  | error e => exact hfail
  | ok status =>
      dsimp only
      split
      · exact hanswered.trans ⟨Circuits.get?_success_of_ne hne.symm, rfl⟩
      · exact hfail

/-- A probe leaves all hosts alone but that of its link. -/
theorem spares_step (isOf : stage.IsOf link)
    (hne : ∀ target, target? link = some target → target.host ≠ other) :
    Spares other scene (step s now deadline scene stage).1 := by
  cases stage with
  | fresh l =>
      obtain rfl : l = link := isOf
      rw [step]
      rcases begin_cases s now deadline scene l with
        hend | ⟨url, hurl, -, hgo⟩ | ⟨url, name, -, -, hask⟩
      · rw [hend]
        exact .refl other scene
      · rw [hgo]
        exact spares_gate (hne _ (target?_of_candidate hurl))
      · rw [hask]
        exact ⟨rfl, rfl⟩
  | lookingUp target answer finish =>
      obtain ⟨url, hurl, rfl, -⟩ := isOf
      rw [step]
      split
      · exact spares_gate (hne _ (target?_of_candidate hurl))
      · exact .refl other scene
  | requesting target left outcome finish =>
      obtain ⟨url, hurl, rfl, -⟩ := isOf
      rw [step]
      split
      · exact spares_conclude (hne _ (target?_of_candidate hurl)) outcome
      · exact spares_fail (hne _ (target?_of_candidate hurl))
  | pausing target left finish =>
      obtain ⟨url, hurl, rfl, -⟩ := isOf
      rw [step]
      split
      · exact spares_attempt (hne _ (target?_of_candidate hurl))
      · exact .refl other scene
  | finished status => exact .refl other scene

theorem Stage.IsOf.step (isOf : stage.IsOf link) :
    (Probe.step s now deadline scene stage).2.IsOf link :=
  (step_keeps isOf fun _ _ _ _ => trivial).1

end Turns

/-! ## One after the other -/

/-- A probe that nobody else disturbs: what it can come to, and when, whatever time passes between
    its turns. -/
inductive Alone (s : Setting) (deadline : Nat) (link : String) (start : Nat) (first : Scene) :
    Nat → Scene → Stage → Prop
  | begin : Alone s deadline link start first start first (.fresh link)
  | turn {now : Nat} {scene : Scene} {stage : Stage}
      (alone : Alone s deadline link start first now scene stage)
      (going : stage.status? = none) (ready : stage.wait now deadline = .nothing) :
      Alone s deadline link start first now (step s now deadline scene stage).1
        (step s now deadline scene stage).2
  | await {now later : Nat} {scene : Scene} {stage : Stage}
      (alone : Alone s deadline link start first now scene stage) (le : now ≤ later) :
      Alone s deadline link start first later scene stage

/-- Probes of links one after the other, each up to its end before its deadline: the statuses found,
    when the last one is at its end, and what it leaves. -/
inductive InTurn (s : Setting) : List String → Nat → Scene → Results → Nat → Scene → Results → Prop
  | done {now : Nat} {scene : Scene} {results : Results} :
      InTurn s [] now scene results now scene results
  | next {deadline now later last : Nat} {link : String} {links : List String}
      {scene scene' final : Scene} {status : LinkStatus} {results results' : Results}
      (alone : Alone s deadline link now scene later scene' (.finished status))
      (intime : later < deadline)
      (rest : InTurn s links later scene' (results.insert link status) last final results') :
      InTurn s (link :: links) now scene results last final results'

section InTurn

variable {s : Setting} {deadline start now last : Nat} {link : String} {first scene final : Scene}
  {stage : Stage} {links : List String} {results results' : Results}

theorem Alone.isOf (h : Alone s deadline link start first now scene stage) : stage.IsOf link := by
  induction h with
  | begin => exact rfl
  | turn alone going ready ih => exact ih.step
  | await alone le ih => exact ih

/-- A probe that is alone comes to the verdict if it is at its end before the deadline. -/
theorem Alone.heads (h : Alone s deadline link start first now scene stage)
    (below : Below s.policy first link) (intime : now < deadline) :
    stage.Heads s link (verdict s.network first link) scene := by
  induction h with
  | begin => exact ⟨rfl, below⟩
  | turn alone going ready ih => exact (ih intime).step alone.isOf going ready intime
  | await alone le ih => exact ih (Nat.lt_of_le_of_lt le intime)

theorem Alone.spares {other : String} (h : Alone s deadline link start first now scene stage)
    (hne : ∀ target, target? link = some target → target.host ≠ other) :
    Spares other first scene := by
  induction h with
  | begin => exact .refl other first
  | turn alone going ready ih => exact ih.trans (spares_step alone.isOf hne)
  | await alone le ih => exact ih

/-- Other links are left alone. -/
theorem Alone.sparesLink {other : String}
    (h : Alone s deadline link start first now scene stage) (apart : Apart link other) :
    SparesLink other first scene := fun target htarget =>
  h.spares fun target' htarget' => apart target' target htarget' htarget

/-! ## All verdicts -/

theorem Apart.symm {other : String} (h : Apart link other) : Apart other link :=
  fun target target' htarget htarget' => (h target' target htarget' htarget).symm

/-- The statuses of links by their verdicts. -/
def outcomes (network : Network) (scene : Scene) (links : List String) : Results :=
  links.foldl (fun found link => found.insert link (verdict network scene link).1) .empty

/-- The failures of a host in the end: by the verdict on the link that has it, if there is one. -/
def countAfter (network : Network) (scene : Scene) (links : List String) (host : String) : Nat :=
  match links.find? fun link => (target? link).any (·.host = host) with
  | some link => (verdict network scene link).2
  | none => scene.circuits.failureCount host

/-- The statuses of links, and the failures of all hosts in the end, are those of the verdicts. -/
structure Decided (s : Setting) (links : List String) (first : Scene) (results : Results)
    (final : Scene) : Prop where
  results_eq : results = outcomes s.network first links
  count_eq : ∀ host,
    final.circuits.failureCount host = countAfter s.network first links host

theorem get?_outcomes (network : Network) (scene : Scene) (links : List String) (link : String) :
    (outcomes network scene links).get? link
      = if link ∈ links then some (verdict network scene link).1 else none := by
  have hfold : ∀ found : Results,
      (links.foldl (fun found link => found.insert link (verdict network scene link).1) found).get?
        link = if link ∈ links then some (verdict network scene link).1 else found.get? link := by
    induction links with
    | nil =>
        intro found
        rw [List.foldl_nil, if_neg List.not_mem_nil]
    | cons l links ih =>
        intro found
        rw [List.foldl_cons, ih]
        by_cases heq : link = l
        · subst heq
          rw [if_pos (List.mem_cons_self ..), Table.get?_insert, if_pos rfl, ite_self]
        · rw [Table.get?_insert, if_neg heq]
          simp only [List.mem_cons, heq, false_or]
  rw [outcomes, hfold]
  rfl

/-- If what is found out about each link is its verdict, and no other host is asked, everything goes
    by the verdicts. -/
theorem Decided.of_verdicts
    (found : ∀ link, results.get? link
      = if link ∈ links then some (verdict s.network first link).1 else none)
    (asked : ∀ link ∈ links, ∀ target, target? link = some target →
      final.circuits.failureCount target.host = (verdict s.network first link).2)
    (spares : ∀ host, (∀ link ∈ links, ∀ target, target? link = some target →
      target.host ≠ host) → Spares host first final) :
    Decided s links first results final where
  results_eq := Table.ext_get? fun link => by rw [found, get?_outcomes]
  count_eq host := by
    unfold countAfter
    split
    · next link hfind =>
      have hhas := List.find?_some
        (p := fun link => (target? link).any fun target => target.host = host) hfind
      obtain ⟨target, htarget, hhost⟩ := (Option.any_eq_true _ _).1 hhas
      rw [← of_decide_eq_true hhost]
      exact asked link (List.mem_of_find?_eq_some hfind) target htarget
    · next hnone =>
      refine Circuits.failureCount_congr
        (spares host fun link hlink target htarget hhost => ?_).circuit
      refine List.find?_eq_none.1 hnone link hlink ?_
      rw [htarget, Option.any_some]
      exact decide_eq_true hhost

/-- Probes one after the other come to their verdicts. -/
theorem InTurn.verdicts (h : InTurn s links now first results last final results')
    (below : ∀ link ∈ links, Below s.policy first link) (apart : links.Pairwise Apart) :
    (∀ link, results'.get? link
      = if link ∈ links then some (verdict s.network first link).1 else results.get? link) ∧
    (∀ link ∈ links, ∀ target, target? link = some target →
      final.circuits.failureCount target.host = (verdict s.network first link).2) ∧
    ∀ host, (∀ link ∈ links, ∀ target, target? link = some target → target.host ≠ host) →
      Spares host first final := by
  induction h with
  | done =>
      refine ⟨fun link => ?_, fun link hlink => ?_, fun host _ => .refl host _⟩
      · rw [if_neg List.not_mem_nil]
      · cases hlink
  | @next deadline now later last link links first mid final status results results' alone intime
      rest ih =>
    rw [List.pairwise_cons] at apart
    obtain ⟨hapart, hrest⟩ := apart
    have hspares : ∀ l ∈ links, SparesLink l first mid := fun l hl =>
      alone.sparesLink (hapart l hl)
    obtain ⟨hfound, hasked, hothers⟩ := ih
      (fun l hl => (below l (List.mem_cons_of_mem _ hl)).congr (hspares l hl)) hrest
    have hverdict : ∀ l ∈ links, verdict s.network mid l = verdict s.network first l :=
      fun l hl => verdict_congr (hspares l hl)
    obtain ⟨hstatus, hcount⟩ := alone.heads (below link (List.mem_cons_self ..)) intime
    refine ⟨fun l => ?_, fun l hl target htarget => ?_, fun host hhost => ?_⟩
    · rw [hfound]
      by_cases hl : l ∈ links
      · rw [if_pos hl, if_pos (List.mem_cons_of_mem _ hl), hverdict l hl]
      · rw [if_neg hl, Table.get?_insert]
        by_cases heq : l = link
        · subst heq
          rw [if_pos rfl, if_pos (List.mem_cons_self ..), hstatus]
        · rw [if_neg heq, if_neg fun hmem => (List.mem_cons.1 hmem).elim heq hl]
    · rcases List.mem_cons.1 hl with rfl | hl
      · -- The host of this link is none of those that are asked later.
        have hlater : Spares target.host mid final := hothers target.host
          fun l hl target' htarget' => (hapart l hl target target' htarget htarget').symm
        rw [Circuits.failureCount_congr hlater.circuit]
        exact hcount target htarget
      · rw [hasked l hl target htarget, hverdict l hl]
    · exact (alone.spares fun target htarget =>
        hhost link (List.mem_cons_self ..) target htarget).trans
          (hothers host fun l hl => hhost l (List.mem_cons_of_mem _ hl))

/-- Probes one after the other come to the same in whatever order. -/
theorem InTurn.decided {order : List String}
    (h : InTurn s order start first .empty last final results)
    (perm : order.Perm links) (below : ∀ link ∈ links, Below s.policy first link)
    (apart : links.Pairwise Apart) : Decided s links first results final := by
  have hapart : order.Pairwise Apart := (perm.pairwise_iff Apart.symm).2 apart
  obtain ⟨hfound, hasked, hspares⟩ :=
    h.verdicts (fun link hlink => below link (perm.mem_iff.1 hlink)) hapart
  refine .of_verdicts (fun link => ?_) (fun link hlink => hasked link (perm.mem_iff.2 hlink))
    fun host hhost => hspares host fun link hlink => hhost link (perm.mem_iff.1 hlink)
  rw [hfound]
  simp only [perm.mem_iff]
  rfl

end InTurn

end Reachability.Probe
