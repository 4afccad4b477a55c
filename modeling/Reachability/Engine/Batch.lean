import Reachability.Engine.World

set_option autoImplicit false

/-! # Batches

The links of a batch are checked at the same time, as far as there are permits, under one
deadline. When all are done their statuses are stored; if that fails the batch has its answer all
the same, and a job tries again.

The time that a batch may take may end when there is no time any more. Then it has no deadline: its
task has been created, but no link is checked, and its caller crashes. -/

namespace Reachability.Engine

/-! ## The check of one link -/

/-- How far the check of a link has come. -/
inductive LinkCheck where
  | fresh (link : String)
  | inLine (link : String)
  | probing (link : String) (stage : Probe.Stage)
  | finished (link : String) (status : LinkStatus)

namespace LinkCheck

/-- What the check of a link waits for. -/
def wait (now : Nat) (key : TaskKey) (deadline : Nat) (w : World) : LinkCheck → Wait
  | fresh _ => .nothing
  | inLine _ => if w.permits.holds key || deadline ≤ now then .nothing else .change (some deadline)
  | probing _ stage => stage.wait now deadline
  | finished .. => .nothing

/-- Adds the status of a link to what has come of its batch. -/
def report (batch : TaskKey) (link : String) (status : LinkStatus) (w : World) : World :=
  match w.batches.get? batch with
  | some p =>
    { w with batches := w.batches.insert batch ⟨p.results.insert link status, p.left - 1⟩ }
  | none => w

/-- The end of a check. -/
def conclude (batch : TaskKey) (link : String) (status : LinkStatus) (w : World) :
    World × LinkCheck :=
  (report batch link status w, .finished link status)

/-- One step of a check that need not wait. -/
def step (s : Settings) (now : Nat) (key batch : TaskKey) (deadline : Nat) (w : World) :
    LinkCheck → World × LinkCheck
  | fresh link => ({ w with permits := w.permits.request key }, .inLine link)
  | inLine link =>
    if w.permits.holds key then (w, .probing link (.fresh link))
    else conclude batch link .notAvailable { w with permits := w.permits.leave key }
  | probing link stage =>
    match stage.status? with
    | some status => conclude batch link status { w with permits := w.permits.release key }
    | none =>
      let (scene, stage) := Probe.step s.probe now deadline w.scene stage
      ({ w with scene }, .probing link stage)
  | finished link status => (w, .finished link status)

end LinkCheck

/-! ## The batch -/

/-- What the caller gets for a batch. -/
structure Outcome where
  /-- The task that the batch became. -/
  id : TaskId
  /-- The status of each link. -/
  results : Results
  /-- Whether the statuses are still to be stored. -/
  deferred : Bool
  deriving DecidableEq

/-- The number of links that are not available. -/
def Outcome.unavailable (o : Outcome) : Nat := (o.results.values.filter (!·.isAvailable)).length

/-- How far a batch has come. -/
inductive BatchCall where
  | creating (callerDeadline : Option Nat) (visit : StoreService.Visit)
  | joining (task : Task) (deadline : Nat)
  | updating (task : Task) (results : Results) (visit : StoreService.Visit)
  | submitting (task : Task) (results : Results)
  | finished (answer : Except StoreError Outcome)
  | crashed (task : Task)

namespace BatchCall

/-- A batch of links, whose caller may have a deadline. -/
def start (links : List String) (callerDeadline : Option Nat) : BatchCall :=
  .creating callerDeadline (.arriving (.create links))

/-- The deadline of a batch whose checks start now. There is none if the time that they may take
    ends when there is no time any more, however early the caller's deadline is. -/
def deadline? (s : Settings) (now : Nat) (caller : Option Nat) : Option Nat :=
  let latest := now + s.limit
  if latest < s.horizon then
    some (match caller with
      | some d => min latest d
      | none => latest)
  else none

/-- The statuses of the links of a task; a link without one is not available. -/
def completed (links : List String) (found : Results) : Results :=
  links.foldl (fun r link => if r.contains link then r else r.insert link .notAvailable) found

/-- Whether all links of a batch are done. -/
def isJoined (w : World) (key : TaskKey) : Bool :=
  match w.batches.get? key with
  | some p => p.left == 0
  | none => true

/-- What a batch waits for. -/
def wait (now : Nat) (key : TaskKey) (w : World) : BatchCall → Wait
  | creating _ visit => visit.wait now key w.service
  | joining .. => if isJoined w key then .nothing else .change none
  | updating _ _ visit => visit.wait now key w.service
  | submitting .. => if w.retries.lock.holds key then .nothing else .change none
  | finished _ => .nothing
  | crashed _ => .nothing

/-- What a step of a batch makes: the world, the batch, and what it starts. -/
structure Move where
  /-- The world afterwards. -/
  world : World
  /-- The batch afterwards. -/
  call : BatchCall
  /-- The links to be checked from now on, and their deadline. -/
  checks : List (String × Nat)
  /-- The result that a job is to store, if any. -/
  job : Option (TaskId × Results)

/-- A step that starts nothing. -/
def Move.plain (world : World) (call : BatchCall) : Move := ⟨world, call, [], none⟩

/-- Starts the checks of a new task, or crashes if there is no deadline for them. -/
def launch (s : Settings) (now : Nat) (key : TaskKey) (caller : Option Nat) (w : World)
    (task : Task) : Move :=
  match deadline? s now caller with
  | some d =>
    ⟨{ w with batches := w.batches.insert key ⟨.empty, task.links.length⟩ }, .joining task d,
      task.links.map (·, d), none⟩
  | none => .plain w (.crashed task)

section Launch

variable {s : Settings} {now d : Nat} {key : TaskKey} {caller : Option Nat} {w : World}
  {task : Task}

theorem launch_of_some (h : deadline? s now caller = some d) : launch s now key caller w task =
    ⟨{ w with batches := w.batches.insert key ⟨.empty, task.links.length⟩ }, .joining task d,
      task.links.map (·, d), none⟩ := by
  simp only [launch, h]

theorem launch_of_none (h : deadline? s now caller = none) :
    launch s now key caller w task = .plain w (.crashed task) := by
  simp only [launch, h]

end Launch

/-- Asks the store to keep what has come of the links. -/
def gather (key : TaskKey) (w : World) (task : Task) : Move :=
  let found := match w.batches.get? key with
    | some p => p.results
    | none => .empty
  let results := completed task.links found
  .plain { w with batches := w.batches.erase key }
    (.updating task results (.arriving (.update task.id results)))

/-- One step of a batch that need not wait. -/
def step (s : Settings) (now : Nat) (key : TaskKey) (w : World) : BatchCall → Move
  | creating caller visit =>
    match visit with
    | .answered (.ok (.task task)) => launch s now key caller w task
    | .answered (.ok _) => .plain w (.creating caller visit)
    | .answered (.error e) => .plain w (.finished (.error e))
    | _ =>
      let (service, visit) := w.service.step s.front (s.moment now) now key visit
      .plain { w with service } (.creating caller visit)
  | joining task _ => gather key w task
  | updating task results visit =>
    match visit with
    | .answered (.ok _) => .plain w (.finished (.ok ⟨task.id, results, false⟩))
    | .answered (.error _) =>
      .plain { w with retries := { w.retries with lock := w.retries.lock.request key } }
        (.submitting task results)
    | _ =>
      let (service, visit) := w.service.step s.front (s.moment now) now key visit
      .plain { w with service } (.updating task results visit)
  -- The caller need not wait for the job that stores the statuses.
  | submitting task results =>
    ⟨{ w with retries := ⟨w.retries.lock.release key, w.retries.running + 1, 0⟩ },
      .finished (.ok ⟨task.id, results, true⟩), [], some (task.id, results)⟩
  | finished answer => .plain w (.finished answer)
  | crashed task => .plain w (.crashed task)

end BatchCall

end Reachability.Engine
