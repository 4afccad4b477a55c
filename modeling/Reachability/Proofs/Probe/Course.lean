import Reachability.Probe
import Reachability.Proofs.Circuit
import Reachability.Proofs.Link

set_option autoImplicit false

/-! # The course of a probe

A probe takes its turns among other tasks. Between two of its turns others may change all that
probes share, as long as they ask nothing of the same host and leave its circuit alone; and while it
waits, time may pass up to the moment that it waits for. A `Course` is all that can come of this, up
to any point, with the turns that the probe has had. However it goes, the probe has at most nine
turns and comes to its end by the deadline. -/

namespace Reachability.Probe

/-! ## Turns -/

/-- A turn of a probe: when it had it, what it found, and what it left. -/
structure Act where
  /-- When. -/
  time : Nat
  /-- What it found. -/
  before : Scene
  /-- What it left. -/
  after : Scene

/-- What can be seen of a probe: the requests that it makes and the waits that it asks the clock
    for. -/
inductive Event where
  | request (target : Target)
  | rest (length : Span)
  deriving DecidableEq

/-- What has come in front of a list, in the order in which it came. -/
def added {α : Type} (before after : List α) : List α :=
  (after.take (after.length - before.length)).reverse

namespace Act

/-- The requests made in a turn. -/
def calls (a : Act) : List Call := added a.before.traffic.calls a.after.traffic.calls

/-- The waits asked for in a turn. -/
def rests (a : Act) : List Span := added a.before.clock.sleeps a.after.clock.sleeps

/-- What can be seen of a turn. -/
def events (a : Act) : List Event :=
  a.calls.map (fun c => .request ⟨c.url, c.host⟩) ++ a.rests.map .rest

end Act

/-- The requests made in some turns. -/
def callsOf (acts : List Act) : List Call := acts.flatMap Act.calls

/-- What can be seen of some turns. -/
def eventsOf (acts : List Act) : List Event := acts.flatMap Act.events

/-! ## Courses -/

/-- Whom the probe of a link with this URL asks. -/
def Target.ofUrl (url : Url) : Target :=
  ⟨url.text, String.ofList ((url.namedHost?.map Url.Host.text).getD [])⟩

/-- Whom the probe of a link asks. -/
def target? (link : String) : Option Target := (Link.candidate? link).map Target.ofUrl

/-- Nothing is asked of a host, and its circuit stays as it is. -/
structure Spares (host : String) (before after : Scene) : Prop where
  circuit : after.circuits.get? host = before.circuits.get? host
  calls : after.traffic.callsTo host = before.traffic.callsTo host

/-- The courses that a probe can take that starts with `first` at `start`: the turns it has had, and
    the time, the scene and the stage that it has come to. -/
inductive Course (s : Setting) (deadline : Nat) (link : String) (start : Nat) (first : Scene) :
    List Act → Nat → Scene → Stage → Prop
  | begin : Course s deadline link start first [] start first (.fresh link)
  | act {acts : List Act} {now : Nat} {scene : Scene} {stage : Stage}
      (course : Course s deadline link start first acts now scene stage)
      (going : stage.status? = none) (ready : stage.wait now deadline = .nothing) :
      Course s deadline link start first
        (acts ++ [⟨now, scene, (step s now deadline scene stage).1⟩]) now
        (step s now deadline scene stage).1 (step s now deadline scene stage).2
  | other {acts : List Act} {now : Nat} {scene scene' : Scene} {stage : Stage}
      (course : Course s deadline link start first acts now scene stage)
      (spares : ∀ target, target? link = some target → Spares target.host scene scene') :
      Course s deadline link start first acts now scene' stage
  | time {acts : List Act} {now later : Nat} {scene : Scene} {stage : Stage} {due : Option Nat}
      (course : Course s deadline link start first acts now scene stage)
      (waits : stage.wait now deadline = .change due) (le : now ≤ later)
      (inTime : ∀ t, due = some t → later ≤ t) :
      Course s deadline link start first acts later scene stage

/-! ## What a turn adds -/

section Added

variable {α : Type}

@[simp] theorem added_self (l : List α) : added l l = [] := by simp [added]

@[simp] theorem added_cons (x : α) (l : List α) : added l (x :: l) = [x] := by
  simp [added, Nat.succ_sub (Nat.le_refl _)]

end Added

namespace Spares

variable {host : String} {before mid after : Scene}

theorem refl (host : String) (scene : Scene) : Spares host scene scene := ⟨rfl, rfl⟩

theorem trans (h : Spares host before mid) (h' : Spares host mid after) :
    Spares host before after :=
  ⟨h'.circuit.trans h.circuit, h'.calls.trans h.calls⟩

end Spares

@[simp] theorem callsOf_append (acts more : List Act) :
    callsOf (acts ++ more) = callsOf acts ++ callsOf more := List.flatMap_append ..

@[simp] theorem eventsOf_append (acts more : List Act) :
    eventsOf (acts ++ more) = eventsOf acts ++ eventsOf more := List.flatMap_append ..

@[simp] theorem callsOf_singleton (a : Act) : callsOf [a] = a.calls := by simp [callsOf]

@[simp] theorem eventsOf_singleton (a : Act) : eventsOf [a] = a.events := by simp [eventsOf]

/-! ## Waiting -/

theorem hasCome_iff {time : Option Nat} {now : Nat} :
    hasCome time now = true ↔ ∃ t, time = some t ∧ t ≤ now := by
  cases time <;> simp [hasCome]

theorem waitUntil_eq_nothing {now deadline : Nat} {finish : Option Nat} :
    waitUntil now deadline finish = .nothing ↔ hasCome finish now = true ∨ deadline ≤ now := by
  unfold waitUntil
  split
  · next h => simpa using h
  · next h => simpa using h

/-- Who waits, waits at most until the deadline and until what it waits for comes. -/
theorem waitUntil_eq_change {now deadline : Nat} {finish due : Option Nat}
    (h : waitUntil now deadline finish = .change due) :
    now < deadline ∧ ∃ t, due = some t ∧ now < t ∧ t ≤ deadline ∧ (∀ f, finish = some f → t ≤ f) ∧
      waitUntil t deadline finish = .nothing := by
  unfold waitUntil at h
  split at h
  · cases h
  · next hwait =>
    cases h
    simp only [Bool.or_eq_true, not_or, Bool.not_eq_true, decide_eq_true_eq, Nat.not_le] at hwait
    obtain ⟨hcome, hnow⟩ := hwait
    cases finish with
    | none =>
        exact ⟨hnow, deadline, rfl, hnow, Nat.le_refl _, nofun,
          waitUntil_eq_nothing.2 (.inr (Nat.le_refl _))⟩
    | some f =>
        have hf : now < f := by simpa [hasCome] using hcome
        refine ⟨hnow, min f deadline, rfl, by omega, by omega, fun g hg => ?_,
          waitUntil_eq_nothing.2 ?_⟩
        · cases hg
          omega
        · rw [hasCome_iff]
          by_cases hle : f ≤ deadline
          · exact .inl ⟨f, rfl, by omega⟩
          · exact .inr (by omega)

/-- Only what is yet to come makes a probe wait. -/
theorem Stage.wait_cases (now deadline : Nat) (stage : Stage) :
    stage.wait now deadline = .nothing ∨
      ∃ finish, (∀ t, stage.wait t deadline = waitUntil t deadline finish) := by
  cases stage with
  | fresh link => exact .inl rfl
  | lookingUp target answer finish => exact .inr ⟨finish, fun _ => rfl⟩
  | requesting target left outcome finish => exact .inr ⟨finish, fun _ => rfl⟩
  | pausing target left finish => exact .inr ⟨finish, fun _ => rfl⟩
  | finished status => exact .inl rfl

/-! ## The end -/

/-- How many turns a probe can still have. -/
def Stage.rank : Stage → Nat
  | .fresh _ => 9
  | .lookingUp .. => 8
  | .requesting _ left _ _ => 2 * left.length + 1
  | .pausing _ left _ => 2 * left.length + 2
  | .finished _ => 0

section Turns

variable (s : Setting) (now deadline : Nat) (scene : Scene) (target : Target) (left : List Span)

theorem rank_attempt_le :
    (attempt s now deadline target left scene).2.rank ≤ 2 * left.length + 1 := by
  unfold attempt
  split
  · exact Nat.zero_le _
  · exact Nat.le_refl _

theorem rank_gate_lt : (gate s now deadline target scene).2.rank < 8 := by
  unfold gate
  dsimp only
  split
  · exact Nat.lt_of_le_of_lt (rank_attempt_le s now deadline _ target pauses) (by decide)
  · exact Nat.zero_lt_succ _

theorem rank_pause_le : (pause now deadline target left scene).2.rank ≤ 2 * left.length := by
  cases left with
  | nil => exact Nat.zero_le _
  | cons d rest =>
      simp only [pause]
      split
      · exact Nat.zero_le _
      · simp only [Stage.rank, List.length_cons]
        omega

theorem rank_conclude_le (outcome : Except RequestError Nat) :
    (conclude now deadline target left outcome scene).2.rank ≤ 2 * left.length := by
  unfold conclude
  cases outcome with
  | error e => exact rank_pause_le ..
  | ok status =>
      dsimp only
      split
      · exact Nat.zero_le _
      · exact rank_pause_le ..

theorem rank_begin_lt (link : String) : (begin s now deadline link scene).2.rank < 9 := by
  unfold begin
  split
  · exact Nat.zero_lt_succ _
  · dsimp only
    split
    · exact Nat.zero_lt_succ _
    · exact Nat.lt_succ_of_lt (rank_gate_lt ..)
    · exact Nat.lt_succ_self _

/-- Each turn brings a probe nearer to its end. -/
theorem rank_step_lt {stage : Stage} (h : stage.status? = none) :
    (step s now deadline scene stage).2.rank < stage.rank := by
  cases stage with
  | fresh link => exact rank_begin_lt ..
  | lookingUp target answer finish =>
      simp only [step]
      split
      · exact rank_gate_lt ..
      · exact Nat.zero_lt_succ _
  | requesting target left outcome finish =>
      simp only [step]
      split
      · exact Nat.lt_succ_of_le (rank_conclude_le ..)
      · exact Nat.zero_lt_succ _
  | pausing target left finish =>
      simp only [step]
      split
      · exact Nat.lt_succ_of_le (rank_attempt_le ..)
      · exact Nat.zero_lt_succ _
  | finished status => cases h

end Turns

namespace Course

variable {s : Setting} {now deadline : Nat} {scene : Scene}
variable {link : String} {start : Nat} {first : Scene} {acts : List Act} {stage : Stage}

/-- No probe goes on after its deadline. -/
theorem now_le (h : Course s deadline link start first acts now scene stage) :
    start ≤ now ∧ now ≤ max start deadline := by
  induction h with
  | begin => exact ⟨Nat.le_refl _, Nat.le_max_left ..⟩
  | act course going ready ih => exact ih
  | other course spares ih => exact ih
  | @time acts now later scene stage due course waits le inTime ih =>
      refine ⟨Nat.le_trans ih.1 le, ?_⟩
      rcases stage.wait_cases now deadline with hnothing | ⟨finish, hwait⟩
      · rw [hnothing] at waits
        cases waits
      · rw [hwait] at waits
        obtain ⟨-, t, hdue, -, ht, -⟩ := waitUntil_eq_change waits
        have hlater := inTime t hdue
        omega

/-- A probe that waits can go on at the latest at the deadline. -/
theorem becomes_ready (h : Course s deadline link start first acts now scene stage) :
    ∃ later, now ≤ later ∧ Course s deadline link start first acts later scene stage ∧
      stage.wait later deadline = .nothing := by
  rcases stage.wait_cases now deadline with hnothing | ⟨finish, hwait⟩
  · exact ⟨now, Nat.le_refl _, h, hnothing⟩
  · cases hnow : stage.wait now deadline with
    | nothing => exact ⟨now, Nat.le_refl _, h, hnow⟩
    | change due =>
        rw [hwait] at hnow
        obtain ⟨-, t, rfl, hlt, -, -, hready⟩ := waitUntil_eq_change hnow
        refine ⟨t, Nat.le_of_lt hlt, ?_, (hwait t).trans hready⟩
        refine h.time ((hwait now).trans hnow) (Nat.le_of_lt hlt) fun t' ht' => ?_
        exact Nat.le_of_eq (Option.some.inj ht')
    | disk =>
        rw [hwait] at hnow
        unfold waitUntil at hnow
        split at hnow <;> cases hnow

/-- From wherever it is, a probe comes to its end. -/
theorem comes_to_end (h : Course s deadline link start first acts now scene stage) :
    ∃ more later scene' status,
      Course s deadline link start first (acts ++ more) later scene' (.finished status) := by
  -- By the number of turns that are left.
  induction hrank : stage.rank using Nat.strongRecOn generalizing acts now scene stage with
  | ind n ih =>
    cases hstatus : stage.status? with
    | some status =>
        cases stage with
        | finished status' => exact ⟨[], now, scene, status', by simpa using h⟩
        | _ => cases hstatus
    | none =>
        obtain ⟨later, -, hcourse, hready⟩ := h.becomes_ready
        have hlt : (step s later deadline scene stage).2.rank < n := by
          have hlt := rank_step_lt s later deadline scene hstatus
          omega
        obtain ⟨more, last, scene', status, hend⟩ := ih _ hlt (hcourse.act hstatus hready) rfl
        exact ⟨_, last, scene', status, by rwa [List.append_assoc] at hend⟩

end Course

end Reachability.Probe
