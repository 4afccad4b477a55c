import Reachability.Probe
import Reachability.Report.Text
import Reachability.Store.Service

set_option autoImplicit false

/-! # The world of the engine

What all tasks of the engine share, and the settings that stay the same. Times are in
milliseconds. -/

namespace Reachability.Engine

/-- What comes of writing a report. -/
inductive Rendering where
  | text (value : String)
  | failed (reason : String)
  | crash

/-- How the storing of a result is tried again. -/
structure RetryPolicy where
  /-- How often it is tried; 0 counts as 1. -/
  maxAttempts : Nat
  /-- The pause after the first failure. It doubles with each further one. -/
  initialBackoff : Span
  deriving DecidableEq

/-- Five attempts, the first pause being a second. -/
def RetryPolicy.standard : RetryPolicy := ⟨5, .ofSeconds 1⟩

/-- The number of attempts. -/
def RetryPolicy.attempts (p : RetryPolicy) : Nat := max 1 p.maxAttempts

/-- The time that a batch may take if none is set. -/
def standardTimeout : Span := .ofSeconds 5

/-- The number of links that are checked at once if none is set. -/
def standardWorkers : Nat := 100

/-- The number of workers for reports if none is set. -/
def standardReportWorkers : Nat := 2

/-- A number, or another one in place of 0. -/
def orElse (n standard : Nat) : Nat := if n = 0 then standard else n

/-- What stays the same. -/
structure Settings where
  /-- What probes have to do with. -/
  probe : Probe.Setting
  /-- What stands before the store. -/
  front : StoreFront
  /-- The present at a time. -/
  moment : Nat → Moment
  /-- How long the check of a batch may take; 0 stands for the standard time. -/
  timeout : Nat
  /-- How the storing of results is tried again. -/
  retry : RetryPolicy
  /-- How reports are written. -/
  render : List Task → Rendering
  /-- From then on there is no time any more; no deadline of a batch is so late. -/
  horizon : Nat := 1000 * Clock.endOfTime

/-- How long the check of a batch may take. -/
def Settings.limit (s : Settings) : Nat := orElse s.timeout standardTimeout.ceilMillis

/-- What has come of the links of a batch so far. -/
structure Progress where
  /-- The statuses found. -/
  results : Results
  /-- The number of links that are still being checked. -/
  left : Nat

/-- The jobs that try again. -/
structure Retries where
  /-- The lock of those who add jobs or wait for them. -/
  lock : Permits
  /-- The number of jobs that are not at their end. -/
  running : Nat
  /-- The number of jobs at their end that nobody has looked at since. -/
  settled : Nat

/-- No jobs. -/
def Retries.none : Retries := ⟨.lock, 0, 0⟩

/-- A report that was ordered. -/
structure ReportJob where
  /-- The task that waits for it. -/
  caller : TaskKey
  /-- The tasks that it is about. -/
  ids : List TaskId
  /-- When it is no longer wanted. -/
  deadline : Nat

/-- The queue of ordered reports. -/
structure ReportQueue where
  /-- The places in the queue; each job in it has one. -/
  places : Permits
  /-- The jobs, the first one first. -/
  jobs : List ReportJob
  /-- The lock of the worker that takes the next job. -/
  receiver : Permits
  /-- The answers that have been given, by caller. -/
  replies : Table TaskKey (Except Report.Error String)
  /-- The number of workers that have not crashed. -/
  workers : Nat

namespace ReportQueue

/-- The queue of a number of workers, with a place for each. -/
def ofWorkers (n : Nat) : ReportQueue := ⟨.ofNat n, [], .lock, .empty, n⟩

/-- Whether nobody is left to take jobs. -/
def isClosed (q : ReportQueue) : Bool := q.workers == 0

/-- Gives a caller its answer. -/
def reply (q : ReportQueue) (caller : TaskKey) (answer : Except Report.Error String) :
    ReportQueue :=
  { q with replies := q.replies.insert caller answer }

/-- One worker crashes over the job of a caller. With the last one go the jobs in the queue. -/
def crash (q : ReportQueue) (caller : TaskKey) : ReportQueue :=
  let q := { q.reply caller (.error .queueClosed) with workers := q.workers - 1 }
  if q.isClosed then
    { q.jobs.foldl (fun q job => q.reply job.caller (.error .queueClosed)) q with jobs := [] }
  else q

end ReportQueue

/-- What all tasks share. -/
structure World where
  /-- What probes share. -/
  scene : Probe.Scene
  /-- The store. -/
  service : StoreService
  /-- The permits to check a link. -/
  permits : Permits
  /-- The batches that are being checked. -/
  batches : Table TaskKey Progress
  /-- The jobs that try again. -/
  retries : Retries
  /-- The ordered reports. -/
  reports : ReportQueue

end Reachability.Engine
