import Reachability.Engine.Process
import Reachability.Proofs.Probe.Course
import Reachability.Proofs.Schedule
import Reachability.Proofs.Store.Service

set_option autoImplicit false

/-! # The turns of batches

Callers give batches to be checked, and wait until all results are stored. `Turns` lists all that
the tasks of such a crowd can do in one turn; whatever holds after each of these turns holds in
every run. A turn brings its task nearer to its end by more than the tasks that it starts are away
from theirs (`Turns.rank_lt`). -/

namespace Reachability.Engine

open StoreService (Visit Moves)

/-- What callers ask for: a batch to be checked, or to wait until all results are stored. -/
inductive Asked : Activity → Prop where
  | check (links : List String) (deadline : Option Nat) : Asked (.batch (.start links deadline))
  | wait : Asked (.drain .fresh)

/-- A caller waits until all results are stored. -/
def Waits (a : Activity) : Prop := a = .drain .fresh

/-- The engine with its idle workers, before anybody has asked for anything. -/
def World.crowd (w : World) : Crowd World Activity :=
  ⟨0, w, List.replicate w.reports.workers (.worker .idle)⟩

theorem World.eq_idle_of_crowd {w : World} {key : TaskKey} {a : Activity}
    (h : w.crowd.tasks[key]? = some a) : a = .worker .idle :=
  List.eq_of_mem_replicate (List.mem_of_getElem? h)

/-- Nothing is to be read off idle workers. -/
theorem World.bind_crowd {β : Type} (w : World) (f : Activity → Option β)
    (hf : f (.worker .idle) = none) (key : TaskKey) : w.crowd.tasks[key]?.bind f = none := by
  rw [Option.bind_eq_none_iff]
  intro a ha
  rw [eq_idle_of_crowd ha, hf]

/-! ## The call on the store that a task makes -/

namespace Activity

/-- The call on the store that a task is making. -/
def visit? : Activity → Option Visit
  | batch (.creating _ visit) => some visit
  | batch (.updating _ _ visit) => some visit
  | retry _ (.trying _ _ visit) => some visit
  | _ => none

/-- The task with its call on the store at another stage. -/
def withVisit (visit : Visit) : Activity → Activity
  | batch (.creating caller _) => batch (.creating caller visit)
  | batch (.updating task results _) => batch (.updating task results visit)
  | retry job (.trying left backoff _) => retry job (.trying left backoff visit)
  | a => a

/-- The call on the store, while it has the writer's lock or waits for it. -/
def inside? (a : Activity) : Option Visit := a.visit?.filter Visit.isInside

/-- Whether a task comes from the checking of batches, or only listens for orders of reports. -/
def isOfBatches : Activity → Bool
  | check .. => true
  | batch _ => true
  | retry .. => true
  | drain _ => true
  | worker .idle => true
  | worker .inLine => true
  | worker .listening => true
  | _ => false

/-- Who makes a call on the store: a batch or a job. -/
inductive Calls : Activity → Visit → Prop where
  | creating (caller : Option Nat) (visit : Visit) : Calls (.batch (.creating caller visit)) visit
  | updating (task : Task) (results : Results) (visit : Visit) :
      Calls (.batch (.updating task results visit)) visit
  | trying (job : RetryJob) (left : Nat) (backoff : Span) (visit : Visit) :
      Calls (.retry job (.trying left backoff visit)) visit

theorem calls_of_visit? {a : Activity} {visit : Visit} (h : a.visit? = some visit) :
    a.Calls visit := by
  unfold visit? at h
  split at h <;> cases h
  · exact .creating ..
  · exact .updating ..
  · exact .trying ..

theorem visit?_withVisit {a : Activity} {visit : Visit} (h : a.visit? = some visit) (v : Visit) :
    (a.withVisit v).visit? = some v := by
  cases calls_of_visit? h <;> rfl

end Activity

/-! ## How many turns are left -/

/-- How many turns the check of a link can still have. -/
def LinkCheck.rank : LinkCheck → Nat
  | .fresh _ => 12
  | .inLine _ => 11
  | .probing _ stage => stage.rank + 1
  | .finished .. => 0

/-- How many turns a job can still have. -/
def Retry.rank : Retry → Nat
  | .trying left _ visit => 6 * (left - 1) + visit.rank + 1
  | .pausing left _ _ => 6 * (left - 1) + 6
  | .finished => 0

/-- How many turns a caller can still have that waits for all jobs. -/
def Drain.rank : Drain → Nat
  | .fresh => 3
  | .inLine => 2
  | .waiting => 1
  | .finished => 0

/-- How many turns a worker can still have that gets no orders. -/
def ReportWorker.rank : ReportWorker → Nat
  | .idle => 2
  | .inLine => 1
  | _ => 0

/-- How many turns a batch can still have, with all that it may yet start. -/
def BatchCall.rank (policy : RetryPolicy) : BatchCall → Nat
  | .creating _ visit => 12 * visit.links.length + visit.rank + 6 * policy.attempts + 8
  | .joining .. => 6 * policy.attempts + 7
  | .updating _ _ visit => visit.rank + 6 * policy.attempts + 2
  | .submitting .. => 6 * policy.attempts + 1
  | .finished _ => 0
  | .crashed _ => 0

/-- How many turns a task can still have, with all that it may yet start. -/
def Activity.rank (policy : RetryPolicy) : Activity → Nat
  | check _ _ stage => stage.rank
  | batch stage => stage.rank policy
  | retry _ stage => stage.rank
  | drain stage => stage.rank
  | worker stage => stage.rank
  | _ => 0

/-! ## The turns -/

/-- Whether the check of a link is at its end. -/
def LinkCheck.isFinished : LinkCheck → Bool
  | .finished .. => true
  | _ => false

/-- What a task can do in a turn that does not go on with a call on the store. -/
inductive Plain (s : Settings) (now : Nat) (key : TaskKey) (w : World) :
    Activity → Turn World Activity → Prop where
  | launched {caller : Option Nat} {task : Task} (deadline : Nat)
      (intime : now + s.limit < s.horizon) :
      Plain s now key w (.batch (.creating caller (.answered (.ok (.task task)))))
        ⟨{ w with batches := w.batches.insert key ⟨.empty, task.links.length⟩ },
          .batch (.joining task deadline),
          task.links.map fun link => .check key deadline (.fresh link)⟩
  | crashed {caller : Option Nat} {task : Task} (late : s.horizon ≤ now + s.limit) :
      Plain s now key w (.batch (.creating caller (.answered (.ok (.task task)))))
        ⟨w, .batch (.crashed task), []⟩
  | rejected {caller : Option Nat} {e : StoreError} :
      Plain s now key w (.batch (.creating caller (.answered (.error e))))
        ⟨w, .batch (.finished (.error e)), []⟩
  | gathered {task : Task} {deadline : Nat} (joined : BatchCall.isJoined w key = true)
      (results : Results) :
      Plain s now key w (.batch (.joining task deadline))
        ⟨{ w with batches := w.batches.erase key },
          .batch (.updating task results (.arriving (.update task.id results))), []⟩
  | stored {task : Task} {results : Results} {reply : StoreReply} :
      Plain s now key w (.batch (.updating task results (.answered (.ok reply))))
        ⟨w, .batch (.finished (.ok ⟨task.id, results, false⟩)), []⟩
  | deferred {task : Task} {results : Results} {e : StoreError} :
      Plain s now key w (.batch (.updating task results (.answered (.error e))))
        ⟨{ w with retries := { w.retries with lock := w.retries.lock.request key } },
          .batch (.submitting task results), []⟩
  | submitted {task : Task} {results : Results} (ready : w.retries.lock.holds key = true) :
      Plain s now key w (.batch (.submitting task results))
        ⟨{ w with retries := ⟨w.retries.lock.release key, w.retries.running + 1, 0⟩ },
          .batch (.finished (.ok ⟨task.id, results, true⟩)),
          [.retry ⟨task.id, results⟩ (.start s.retry ⟨task.id, results⟩)]⟩
  | succeeded {job : RetryJob} {left : Nat} {backoff : Span} {reply : StoreReply} (settled : Nat) :
      Plain s now key w (.retry job (.trying left backoff (.answered (.ok reply))))
        ⟨{ w with retries := ⟨w.retries.lock, w.retries.running - 1, settled⟩ },
          .retry job .finished, []⟩
  | gaveUp {job : RetryJob} {left : Nat} {backoff : Span} {e : StoreError} (last : left ≤ 1)
      (settled : Nat) :
      Plain s now key w (.retry job (.trying left backoff (.answered (.error e))))
        ⟨{ w with retries := ⟨w.retries.lock, w.retries.running - 1, settled⟩ },
          .retry job .finished, []⟩
  | paused {job : RetryJob} {left : Nat} {backoff : Span} {e : StoreError} (more : 1 < left) :
      Plain s now key w (.retry job (.trying left backoff (.answered (.error e))))
        ⟨{ w with scene := { w.scene with clock := (w.scene.clock.sleep backoff now).1 } },
          .retry job (.pausing (left - 1) backoff.double (w.scene.clock.sleep backoff now).2), []⟩
  | retried {job : RetryJob} {left : Nat} {backoff : Span} {finish : Option Nat} :
      Plain s now key w (.retry job (.pausing left backoff finish))
        ⟨w, .retry job (.attempt job left backoff), []⟩
  | checked {parent : TaskKey} {deadline : Nat} {stage stage' : LinkCheck} {scene : Probe.Scene}
      {permits : Permits} (going : stage'.isFinished = false) (nearer : stage'.rank < stage.rank)
      (clock : scene.clock.kind = w.scene.clock.kind) :
      Plain s now key w (.check parent deadline stage)
        ⟨{ w with scene, permits }, .check parent deadline stage', []⟩
  | reported {parent : TaskKey} {deadline : Nat} {stage : LinkCheck} {link : String}
      {status : LinkStatus} {permits : Permits} (going : stage.isFinished = false) :
      Plain s now key w (.check parent deadline stage)
        ⟨LinkCheck.report parent link status { w with permits },
          .check parent deadline (.finished link status), []⟩
  | asked :
      Plain s now key w (.drain .fresh)
        ⟨{ w with retries := { w.retries with lock := w.retries.lock.request key } },
          .drain .inLine, []⟩
  | admitted (ready : w.retries.lock.holds key = true) :
      Plain s now key w (.drain .inLine) ⟨w, .drain .waiting, []⟩
  | drained (idle : w.retries.running = 0) :
      Plain s now key w (.drain .waiting)
        ⟨{ w with retries := ⟨w.retries.lock.release key, w.retries.running, 0⟩ },
          .drain .finished, []⟩
  | worked {stage stage' : ReportWorker} {receiver : Permits}
      (kind : Activity.isOfBatches (.worker stage') = true) (nearer : stage'.rank < stage.rank) :
      Plain s now key w (.worker stage)
        ⟨{ w with reports := { w.reports with receiver } }, .worker stage', []⟩

/-- All that a task can do in a turn. -/
inductive Turns (s : Settings) (now : Nat) (key : TaskKey) (w : World) :
    Activity → Turn World Activity → Prop where
  | visits {a : Activity} {visit visit' : Visit} {service : StoreService}
      (visiting : a.visit? = some visit) (going : visit.isAnswered = false)
      (ready : ∀ call, visit = .inLine call → w.service.writer.holds key = true)
      (moves : Moves s.front (s.moment now) now key w.service visit service visit') :
      Turns s now key w a ⟨{ w with service }, a.withVisit visit', []⟩
  | plain {a : Activity} {t : Turn World Activity} (h : Plain s now key w a t) :
      Turns s now key w a t

section Turns

variable {s : Settings} {now : Nat} {key : TaskKey} {w : World} {a : Activity}
  {t : Turn World Activity}

/-! ## A turn is one of them -/

theorem step_of_visit {visit : Visit} (visiting : a.visit? = some visit)
    (going : visit.isAnswered = false) :
    a.step s now key w =
      ⟨{ w with service := (w.service.step s.front (s.moment now) now key visit).1 },
        a.withVisit (w.service.step s.front (s.moment now) now key visit).2, []⟩ := by
  cases Activity.calls_of_visit? visiting <;> cases visit <;> first | rfl | cases going

theorem wait_of_visit {visit : Visit} (visiting : a.visit? = some visit) :
    a.wait now key w = visit.wait now key w.service := by
  cases Activity.calls_of_visit? visiting <;> rfl

theorem kind_sleep (clock : Clock) (d : Span) (now : Nat) :
    (clock.sleep d now).1.kind = clock.kind := by
  unfold Clock.sleep
  dsimp only
  split <;> rfl

/-- Probes leave the kind of the clock alone. -/
theorem kind_probe_step (p : Probe.Setting) (deadline : Nat) (scene : Probe.Scene)
    (stage : Probe.Stage) :
    (Probe.step p now deadline scene stage).1.clock.kind = scene.clock.kind := by
  have hattempt : ∀ target left (scene : Probe.Scene),
      (Probe.attempt p now deadline target left scene).1.clock = scene.clock := by
    intro target left scene
    unfold Probe.attempt
    split <;> rfl
  have hgate : ∀ target (scene : Probe.Scene),
      (Probe.gate p now deadline target scene).1.clock = scene.clock := by
    intro target scene
    unfold Probe.gate
    dsimp only
    split
    · exact hattempt ..
    · rfl
  have hpause : ∀ target left (scene : Probe.Scene),
      (Probe.pause now deadline target left scene).1.clock.kind = scene.clock.kind := by
    intro target left scene
    unfold Probe.pause
    split
    · split
      · rfl
      · exact kind_sleep ..
    · rfl
  cases stage with
  | fresh link =>
      simp only [Probe.step, Probe.begin]
      split
      · rfl
      · split
        · rfl
        · exact congrArg Clock.kind (hgate ..)
        · rfl
  | lookingUp target answer finish =>
      simp only [Probe.step]
      split
      · exact congrArg Clock.kind (hgate ..)
      · rfl
  | requesting target left outcome finish =>
      simp only [Probe.step]
      split
      · unfold Probe.conclude
        dsimp only
        split
        · split
          · rfl
          · exact hpause ..
        · exact hpause ..
      · rfl
  | pausing target left finish =>
      simp only [Probe.step]
      split
      · exact congrArg Clock.kind (hattempt ..)
      · rfl
  | finished status => rfl

section CanGo

variable {c : Crowd World Activity}

theorem turns_visit {visit : Visit} (can : c.CanGo (process s) key a)
    (visiting : a.visit? = some visit) (going : visit.isAnswered = false) :
    Turns s c.now key c.shared a (a.step s c.now key c.shared) := by
  rw [step_of_visit visiting going]
  refine .visits visiting going (fun call hcall => ?_) (StoreService.moves_step ..)
  have hwait : a.wait c.now key c.shared = visit.wait c.now key c.shared.service :=
    wait_of_visit visiting
  rw [hcall] at hwait
  exact can.of_wait hwait

theorem plain_check {parent : TaskKey} {deadline : Nat} {stage : LinkCheck}
    (can : c.CanGo (process s) key (.check parent deadline stage)) :
    Plain s c.now key c.shared (.check parent deadline stage)
      (Activity.step s c.now key c.shared (.check parent deadline stage)) := by
  cases stage with
  | fresh link => exact .checked rfl (Nat.lt_succ_self 11) rfl
  | inLine link =>
      simp only [Activity.step, LinkCheck.step]
      split
      · exact .checked rfl (Nat.lt_succ_self 10) rfl
      · exact .reported rfl
  | probing link stage =>
      simp only [Activity.step, LinkCheck.step]
      split
      · exact .reported rfl
      · next hnone =>
        refine .checked rfl (Nat.succ_lt_succ ?_) (kind_probe_step ..)
        exact Probe.rank_step_lt s.probe c.now deadline c.shared.scene hnone
  | finished link status => cases can.unfinished

/-- Whether there is a deadline does not depend on the caller's. -/
theorem BatchCall.deadline?_eq_none_iff (caller : Option Nat) :
    deadline? s now caller = none ↔ s.horizon ≤ now + s.limit := by
  unfold deadline?
  dsimp only
  split
  · next intime => exact ⟨nofun, fun late => absurd intime (Nat.not_lt.2 late)⟩
  · next late => exact ⟨fun _ => Nat.le_of_not_lt late, fun _ => rfl⟩

theorem BatchCall.lt_horizon_of_deadline? {caller : Option Nat} {d : Nat}
    (h : deadline? s now caller = some d) : now + s.limit < s.horizon := by
  refine Nat.lt_of_not_le fun late => ?_
  rw [(deadline?_eq_none_iff caller).2 late] at h
  cases h

theorem Activity.step_launch {caller : Option Nat} {d : Nat} (task : Task)
    (h : BatchCall.deadline? s now caller = some d) :
    Activity.step s now key w (.batch (.creating caller (.answered (.ok (.task task))))) =
      ⟨{ w with batches := w.batches.insert key ⟨.empty, task.links.length⟩ },
        .batch (.joining task d), task.links.map fun link => .check key d (.fresh link)⟩ := by
  simp only [Activity.step, BatchCall.step, BatchCall.launch_of_some h, List.map_map,
    Option.toList_none, List.map_nil, List.append_nil]
  rfl

theorem Activity.step_crash {caller : Option Nat} (task : Task)
    (h : BatchCall.deadline? s now caller = none) :
    Activity.step s now key w (.batch (.creating caller (.answered (.ok (.task task))))) =
      ⟨w, .batch (.crashed task), []⟩ := by
  simp only [Activity.step, BatchCall.step, BatchCall.launch_of_none h]
  rfl

theorem plain_launch (caller : Option Nat) (task : Task) :
    Plain s now key w (.batch (.creating caller (.answered (.ok (.task task)))))
      (Activity.step s now key w (.batch (.creating caller (.answered (.ok (.task task)))))) := by
  cases hd : BatchCall.deadline? s now caller with
  | some d =>
      rw [Activity.step_launch task hd]
      exact .launched d (BatchCall.lt_horizon_of_deadline? hd)
  | none =>
      rw [Activity.step_crash task hd]
      exact .crashed ((BatchCall.deadline?_eq_none_iff caller).1 hd)

theorem turns_batch {stage : BatchCall} (can : c.CanGo (process s) key (.batch stage))
    (creates : ∀ caller reply, stage = .creating caller (.answered (.ok reply)) →
      ∃ task, reply = .task task) :
    Turns s c.now key c.shared (.batch stage)
      (Activity.step s c.now key c.shared (.batch stage)) := by
  cases stage with
  | creating caller visit =>
      cases visit with
      | answered answer =>
          cases answer with
          | ok reply =>
              obtain ⟨task, rfl⟩ := creates caller reply rfl
              exact .plain (plain_launch caller task)
          | error e => exact .plain .rejected
      | _ => exact turns_visit can rfl rfl
  | joining task deadline =>
      have joined : BatchCall.isJoined c.shared key = true := can.of_wait rfl
      exact .plain (.gathered joined _)
  | updating task results visit =>
      cases visit with
      | answered answer =>
          cases answer with
          | ok reply => exact .plain .stored
          | error e => exact .plain .deferred
      | _ => exact turns_visit can rfl rfl
  | submitting task results =>
      have ready : c.shared.retries.lock.holds key = true := can.of_wait rfl
      exact .plain (.submitted ready)
  | finished answer => cases can.unfinished
  | crashed task => cases can.unfinished

theorem turns_retry {job : RetryJob} {stage : Retry}
    (can : c.CanGo (process s) key (.retry job stage)) :
    Turns s c.now key c.shared (.retry job stage)
      (Activity.step s c.now key c.shared (.retry job stage)) := by
  cases stage with
  | trying left backoff visit =>
      cases visit with
      | answered answer =>
          cases answer with
          | ok reply => exact .plain (.succeeded _)
          | error e =>
              simp only [Activity.step, Retry.step, Retry.afterFailure]
              split
              · next last => exact .plain (.gaveUp last _)
              · next more => exact .plain (.paused (Nat.lt_of_not_le more))
      | _ => exact turns_visit can rfl rfl
  | pausing left backoff finish => exact .plain .retried
  | finished => cases can.unfinished

theorem plain_drain {stage : Drain} (can : c.CanGo (process s) key (.drain stage)) :
    Plain s c.now key c.shared (.drain stage)
      (Activity.step s c.now key c.shared (.drain stage)) := by
  cases stage with
  | fresh => exact .asked
  | inLine =>
      have ready : c.shared.retries.lock.holds key = true := can.of_wait rfl
      exact .admitted ready
  | waiting =>
      have idle : c.shared.retries.running = 0 := can.of_wait rfl
      exact .drained idle
  | finished => cases can.unfinished

/-- A worker that listens goes on only when there is an order. -/
theorem jobs_ne_nil_of_canGo (can : c.CanGo (process s) key (.worker .listening)) :
    c.shared.reports.jobs ≠ [] := by
  intro hnil
  refine can.wait_ne none ?_
  show (if c.shared.reports.jobs.isEmpty then Wait.change none else .nothing) = _
  rw [hnil]
  rfl

/-- What a task of such a crowd does when it can go on. -/
theorem turns_of_canGo (can : c.CanGo (process s) key a) (kind : a.isOfBatches = true)
    (quiet : c.shared.reports.jobs = [])
    (creates : ∀ caller reply, a = .batch (.creating caller (.answered (.ok reply))) →
      ∃ task, reply = .task task) :
    Turns s c.now key c.shared a (a.step s c.now key c.shared) := by
  cases a with
  | check parent deadline stage => exact .plain (plain_check can)
  | batch stage => exact turns_batch can fun caller reply h => creates caller reply (congrArg _ h)
  | retry job stage => exact turns_retry can
  | drain stage => exact .plain (plain_drain can)
  | worker stage =>
      cases stage with
      | idle => exact .plain (.worked rfl (Nat.lt_succ_self 1))
      | inLine => exact .plain (.worked rfl Nat.one_pos)
      | listening => exact absurd quiet (jobs_ne_nil_of_canGo can)
      | loading => cases kind
      | crashed => cases kind
  | _ => cases kind

end CanGo

/-! ## The end comes nearer -/

theorem Plain.rank_lt (h : Plain s now key w a t) :
    t.task.rank s.retry + (t.started.map (Activity.rank s.retry)).sum < a.rank s.retry := by
  have hattempts : 1 ≤ s.retry.attempts := Nat.le_max_left ..
  cases h with
  | @launched caller task deadline intime =>
      have hsum : ((task.links.map fun link => Activity.check key deadline (.fresh link)).map
          (Activity.rank s.retry)).sum = 12 * task.links.length := by
        rw [List.map_map]
        have hconst : Activity.rank s.retry ∘ (fun link => .check key deadline (.fresh link))
            = fun _ => 12 := rfl
        rw [hconst, List.map_const', List.sum_replicate_nat, Nat.mul_comm]
      simp only [hsum, Activity.rank, BatchCall.rank, Visit.links, Visit.rank]
      omega
  | crashed late =>
      simp only [Activity.rank, BatchCall.rank, List.map_nil, List.sum_nil]
      omega
  | rejected =>
      simp only [Activity.rank, BatchCall.rank, List.map_nil, List.sum_nil]
      omega
  | gathered joined results =>
      simp only [Activity.rank, BatchCall.rank, Visit.rank, List.map_nil, List.sum_nil]
      omega
  | stored =>
      simp only [Activity.rank, BatchCall.rank, List.map_nil, List.sum_nil]
      omega
  | deferred =>
      simp only [Activity.rank, BatchCall.rank, List.map_nil, List.sum_nil]
      omega
  | submitted ready =>
      simp only [Activity.rank, BatchCall.rank, Retry.start, Retry.attempt, Retry.rank, Visit.rank,
        List.map_singleton, List.sum_singleton]
      omega
  | succeeded settled =>
      simp only [Activity.rank, Retry.rank, List.map_nil, List.sum_nil]
      omega
  | gaveUp last settled =>
      simp only [Activity.rank, Retry.rank, List.map_nil, List.sum_nil]
      omega
  | paused more =>
      simp only [Activity.rank, Retry.rank, List.map_nil, List.sum_nil]
      omega
  | retried =>
      simp only [Activity.rank, Retry.attempt, Retry.rank, Visit.rank, List.map_nil, List.sum_nil]
      omega
  | checked going nearer clock => exact nearer
  | @reported parent deadline stage link status permits going =>
      show 0 < stage.rank
      cases stage <;> first | exact Nat.succ_pos _ | cases going
  | asked => exact Nat.lt_succ_self 2
  | admitted ready => exact Nat.lt_succ_self 1
  | drained idle => exact Nat.one_pos
  | worked kind nearer => exact nearer

theorem Turns.rank_lt (h : Turns s now key w a t) (refuses : s.front.Refuses) :
    t.task.rank s.retry + (t.started.map (Activity.rank s.retry)).sum < a.rank s.retry := by
  cases h with
  | @visits visit visit' service visiting going ready moves =>
      have hrank := moves.rank_lt going
      have hlinks := moves.links_length_le refuses
      show _ + 0 < _
      cases Activity.calls_of_visit? visiting with
      | creating caller =>
          simp only [Activity.withVisit, Activity.rank, BatchCall.rank]
          omega
      | updating task results =>
          simp only [Activity.withVisit, Activity.rank, BatchCall.rank]
          omega
      | trying job left backoff =>
          simp only [Activity.withVisit, Activity.rank, Retry.rank]
          omega
  | plain h => exact h.rank_lt

end Turns

end Reachability.Engine
