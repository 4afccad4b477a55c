import Reachability.Engine.Batch
import Reachability.Engine.Reports
import Reachability.Engine.Retry

set_option autoImplicit false

/-! # The engine

All tasks of the engine as one process: batches with the checks of their links, jobs that try again,
and reports with their workers. -/

namespace Reachability.Engine

/-- The tasks of the engine. -/
inductive Activity where
  | check (parent : TaskKey) (deadline : Nat) (stage : LinkCheck)
  | batch (stage : BatchCall)
  | retry (job : RetryJob) (stage : Retry)
  | submission (job : RetryJob) (stage : Submission)
  | drain (stage : Drain)
  | worker (stage : ReportWorker)
  | report (stage : ReportCall)
  | probe (deadline : Nat) (stage : Probe.Stage)
  | rest (stop : Nat) (isOver : Bool)

namespace Activity

/-- What a task waits for. -/
def wait (now : Nat) (key : TaskKey) (w : World) : Activity → Wait
  | check _ deadline stage => stage.wait now key deadline w
  | batch stage => stage.wait now key w
  | retry _ stage => stage.wait now key w
  | submission _ stage => stage.wait key w
  | drain stage => stage.wait key w
  | worker stage => stage.wait now key w
  | report stage => stage.wait now key w
  | probe deadline stage => stage.wait now deadline
  | rest stop _ => if stop ≤ now then .nothing else .change (some stop)

/-- Whether a task is at its end. -/
def isFinished : Activity → Bool
  | check _ _ (.finished ..) => true
  | batch (.finished _) => true
  | batch (.crashed _) => true
  | retry _ .finished => true
  | submission _ .finished => true
  | drain .finished => true
  | worker .crashed => true
  | report (.finished ..) => true
  | probe _ (.finished _) => true
  | rest _ isOver => isOver
  | _ => false

/-- One step of a task that need not wait. -/
def step (s : Settings) (now : Nat) (key : TaskKey) (w : World) :
    Activity → Turn World Activity
  | check parent deadline stage =>
    let (w, stage) := stage.step s now key parent deadline w
    ⟨w, .check parent deadline stage, []⟩
  | batch stage =>
    let move := stage.step s now key w
    ⟨move.world, .batch move.call,
      move.checks.map (fun (link, deadline) => .check key deadline (.fresh link)) ++
        move.job.toList.map fun (id, result) =>
          let job : RetryJob := ⟨id, result⟩
          .retry job (.start s.retry job)⟩
  | retry job stage =>
    let (w, stage) := stage.step s now key job w
    ⟨w, .retry job stage, []⟩
  | submission job stage =>
    let (w, stage, starts) := stage.step key w
    ⟨w, .submission job stage, if starts then [.retry job (.start s.retry job)] else []⟩
  | drain stage =>
    let (w, stage) := stage.step key w
    ⟨w, .drain stage, []⟩
  | worker stage =>
    let (w, stage) := stage.step s now key w
    ⟨w, .worker stage, []⟩
  | report stage =>
    let (w, stage) := stage.step now key w
    ⟨w, .report stage, []⟩
  | probe deadline stage =>
    let (scene, stage) := Probe.step s.probe now deadline w.scene stage
    ⟨{ w with scene }, .probe deadline stage, []⟩
  | rest stop _ => ⟨w, .rest stop true, []⟩

end Activity

/-- The engine as a process. -/
def process (s : Settings) : Process World Activity where
  wait := Activity.wait
  isFinished := Activity.isFinished
  step now key _ := Activity.step s now key

/-- The engine at work. -/
abbrev Run := Schedule World Activity

/-- The world before anything has been done. -/
def World.initial (clock : ClockKind) (service : StoreService) (workers reportWorkers : Nat) :
    World where
  scene := ⟨.none, .empty, .ofKind clock⟩
  service
  permits := .ofNat (orElse workers standardWorkers)
  batches := .empty
  retries := .none
  reports := .ofWorkers (orElse reportWorkers standardReportWorkers)

/-- The engine with its workers, before anything else is done. -/
def Run.initial (world : World) : Run :=
  (Schedule.idle world).add (List.replicate world.reports.workers (.worker .idle))

namespace Run

/-- Runs a task in the foreground. -/
def perform (s : Settings) (r : Run) (task : Activity) : Option Activity × Run :=
  Schedule.perform (process s) r task

/-- Checks a batch: its outcome, or why it could not be made a task; none if it crashes, or if there
    is no end. -/
def check (s : Settings) (r : Run) (links : List String) (callerDeadline : Option Nat) :
    Option (Except StoreError Outcome) × Run :=
  let (task, r) := r.perform s (.batch (.start links callerDeadline))
  (match task with
    | some (.batch (.finished answer)) => some answer
    | _ => none, r)

/-- Looks at a single link, outside of any batch. -/
def probe (s : Settings) (r : Run) (link : String) (limit : Nat) : Option LinkStatus × Run :=
  let (task, r) := r.perform s (.probe (r.now + limit) (.fresh link))
  (match task with
    | some (.probe _ stage) => stage.status?
    | _ => none, r)

/-- Orders a report and waits for it, at most so long. -/
def report (s : Settings) (r : Run) (ids : List TaskId) (limit : Nat) :
    Option (Except Report.Error String) × Run :=
  let (task, r) := r.perform s (.report (.fresh ids r.now limit))
  (match task with
    | some (.report (.finished answer _)) => some answer
    | _ => none, r)

/-- Lets callers order reports in the background: the answers in order, and when they came. -/
def reports (s : Settings) (r : Run) (calls : List ReportCall) :
    List (Option (Except Report.Error String × Nat)) × Run :=
  let keys := (List.range calls.length).map (r.nextKey + ·)
  let r := (r.add (calls.map .report)).run (process s)
    (fun r => keys.all fun key => (r.result? key).isSome) Schedule.patience
  (keys.map fun key =>
    match r.result? key with
    | some (.report (.finished answer time)) => some (answer, time)
    | _ => none, { r with finished := [] })

/-- Hands over a job that stores a result. -/
def submit (s : Settings) (r : Run) (job : RetryJob) : Run :=
  (r.perform s (.submission job .fresh)).2

/-- Waits for all jobs. -/
def drain (s : Settings) (r : Run) : Run := (r.perform s (.drain .fresh)).2

/-- Lets time pass. -/
def rest (s : Settings) (r : Run) (time : Nat) : Run :=
  (r.perform s (.rest (r.now + time) false)).2

/-- Moves the clock; with a real one this takes its time. -/
def advance (s : Settings) (r : Run) (time : Nat) : Run :=
  let clock := r.shared.scene.clock
  match clock.kind with
  | .real => r.rest s time
  | _ =>
    let scene := { r.shared.scene with clock := clock.move (.ofMillis time) }
    { r with shared := { r.shared with scene } }

/-- The jobs that nobody has seen at their end. -/
def pending (r : Run) : Nat := r.shared.retries.running + r.shared.retries.settled

end Run

end Reachability.Engine
