import Reachability.Engine.World

set_option autoImplicit false

/-! # Trying again

A job stores a result that could not be stored at once. It pauses after each failure, each time
twice as long, and gives up after a number of attempts. -/

namespace Reachability.Engine

/-! ## Jobs -/

/-- What a job is to store. -/
structure RetryJob where
  /-- The task. -/
  id : TaskId
  /-- Its result. -/
  result : Results
  deriving DecidableEq

/-- How far a job has come: `left` attempts with the present one, and the pause after it. -/
inductive Retry where
  | trying (left : Nat) (backoff : Span) (visit : StoreService.Visit)
  | pausing (left : Nat) (backoff : Span) (finish : Option Nat)
  | finished

namespace Retry

/-- An attempt. -/
def attempt (job : RetryJob) (left : Nat) (backoff : Span) : Retry :=
  .trying left backoff (.arriving (.update job.id job.result))

/-- A job before its first attempt. -/
def start (policy : RetryPolicy) (job : RetryJob) : Retry :=
  attempt job policy.attempts policy.initialBackoff

/-- What a job waits for. -/
def wait (now : Nat) (key : TaskKey) (w : World) : Retry → Wait
  | trying _ _ visit => visit.wait now key w.service
  | pausing _ _ finish => if Probe.hasCome finish now then .nothing else .change finish
  | finished => .nothing

/-- The end of a job. -/
def conclude (w : World) : World × Retry :=
  ({ w with retries :=
      { w.retries with running := w.retries.running - 1, settled := w.retries.settled + 1 } },
    .finished)

/-- Goes on after an attempt has failed. -/
def afterFailure (now left : Nat) (backoff : Span) (w : World) : World × Retry :=
  if left ≤ 1 then conclude w
  else
    let (clock, finish) := w.scene.clock.sleep backoff now
    ({ w with scene := { w.scene with clock } }, .pausing (left - 1) backoff.double finish)

/-- One step of a job that need not wait. -/
def step (s : Settings) (now : Nat) (key : TaskKey) (job : RetryJob) (w : World) :
    Retry → World × Retry
  | trying left backoff visit =>
    match visit with
    | .answered (.ok _) => conclude w
    | .answered (.error _) => afterFailure now left backoff w
    | _ =>
      let (service, visit) := w.service.step s.front (s.moment now) now key visit
      ({ w with service }, .trying left backoff visit)
  | pausing left backoff _ => (w, attempt job left backoff)
  | finished => (w, .finished)

end Retry

/-! ## Handing jobs over, and waiting for them -/

/-- How far a task has come that hands a job over. -/
inductive Submission where
  | fresh
  | inLine
  | finished
  deriving DecidableEq

namespace Submission

/-- What the task waits for. -/
def wait (key : TaskKey) (w : World) : Submission → Wait
  | inLine => if w.retries.lock.holds key then .nothing else .change none
  | _ => .nothing

/-- One step of the task, and whether the job starts with it. Jobs at their end are forgotten. -/
def step (key : TaskKey) (w : World) : Submission → World × Submission × Bool
  | fresh =>
    ({ w with retries := { w.retries with lock := w.retries.lock.request key } }, .inLine, false)
  | inLine =>
    ({ w with retries := ⟨w.retries.lock.release key, w.retries.running + 1, 0⟩ }, .finished, true)
  | finished => (w, .finished, false)

end Submission

/-- How far a task has come that waits for all jobs. -/
inductive Drain where
  | fresh
  | inLine
  | waiting
  | finished
  deriving DecidableEq

namespace Drain

/-- What the task waits for. It keeps the lock until all jobs are at their end. -/
def wait (key : TaskKey) (w : World) : Drain → Wait
  | inLine => if w.retries.lock.holds key then .nothing else .change none
  | waiting => if w.retries.running = 0 then .nothing else .change none
  | _ => .nothing

/-- One step of the task. -/
def step (key : TaskKey) (w : World) : Drain → World × Drain
  | fresh => ({ w with retries := { w.retries with lock := w.retries.lock.request key } }, .inLine)
  | inLine => (w, .waiting)
  | waiting =>
    ({ w with retries := { w.retries with lock := w.retries.lock.release key, settled := 0 } },
      .finished)
  | finished => (w, .finished)

end Drain

end Reachability.Engine
