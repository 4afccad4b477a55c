set_option autoImplicit false

/-! # Schedules

Tasks share a state and take turns. A task says what it waits for; when it can go on it takes a
step, which changes the shared state and may start further tasks. All is decided by the functions
of a `Process`, so that any order of steps can be studied; `Schedule.run` takes one of them:

* tasks run in the order in which they became able to, each until it has to wait;
* the foreground task comes after all others;
* the disk answers when no task can go on, in the order of the requests;
* time stands still while anything can happen and then jumps to the next time that a task waits
  for; if the foreground task waited for it, that one comes first. -/

namespace Reachability

/-- The number of a task. -/
abbrev TaskKey := Nat

/-- What a task waits for: nothing; a change of the shared state, or a time at the latest; the
    disk. -/
inductive Wait where
  | nothing
  | change (due : Option Nat)
  | disk
  deriving DecidableEq

/-- What a step makes of the shared state and of the task, and the tasks that it starts. -/
structure Turn (σ τ : Type) where
  /-- The shared state afterwards. -/
  shared : σ
  /-- The task afterwards. -/
  task : τ
  /-- New tasks. -/
  started : List τ

/-- How tasks of a kind behave. Times are in milliseconds. -/
structure Process (σ τ : Type) where
  /-- What a task waits for at a time. -/
  wait : Nat → TaskKey → σ → τ → Wait
  /-- Whether a task is at its end. -/
  isFinished : τ → Bool
  /-- One step of a task at a time. New tasks get numbers from the given one on. -/
  step : Nat → TaskKey → TaskKey → σ → τ → Turn σ τ

/-- A task in a schedule. -/
structure Slot (τ : Type) where
  /-- The number of the task. -/
  key : TaskKey
  /-- When the task began to wait, as a place in the order of all waits. -/
  stamp : Nat
  /-- The task. -/
  task : τ

/-- Tasks on their way. -/
structure Schedule (σ τ : Type) where
  /-- The time. -/
  now : Nat
  /-- What the tasks share. -/
  shared : σ
  /-- The tasks that are not at their end. -/
  slots : List (Slot τ)
  /-- The tasks that are. -/
  finished : List (TaskKey × τ)
  /-- The tasks that can go on, in the order in which they became able to. -/
  queue : List TaskKey
  /-- The task that has the turn. -/
  current : Option TaskKey
  /-- The task that comes last. -/
  foreground : Option TaskKey
  /-- The number of the next task. -/
  nextKey : TaskKey
  /-- The place of the next wait. -/
  nextStamp : Nat

namespace Schedule

variable {σ τ : Type}

/-- A schedule without tasks. -/
def idle (shared : σ) : Schedule σ τ := ⟨0, shared, [], [], [], none, none, 0, 0⟩

/-- The schedule with more tasks. -/
def add (s : Schedule σ τ) (tasks : List τ) : Schedule σ τ :=
  { s with
    slots := s.slots ++ tasks.zipIdx.map fun (t, i) => ⟨s.nextKey + i, s.nextStamp + i, t⟩
    nextKey := s.nextKey + tasks.length
    nextStamp := s.nextStamp + tasks.length }

/-- The task with a number. -/
def slot? (s : Schedule σ τ) (key : TaskKey) : Option (Slot τ) := s.slots.find? (·.key == key)

/-- What a task of the schedule waits for. -/
def waitOf (p : Process σ τ) (s : Schedule σ τ) (slot : Slot τ) : Wait :=
  p.wait s.now slot.key s.shared slot.task

/-- Whether a task of the schedule can go on. -/
def isReady (p : Process σ τ) (s : Schedule σ τ) (slot : Slot τ) : Bool :=
  s.waitOf p slot == .nothing

/-- The schedule after a step of one of its tasks. -/
def step (p : Process σ τ) (s : Schedule σ τ) (slot : Slot τ) : Schedule σ τ :=
  let turn := p.step s.now slot.key s.nextKey s.shared slot.task
  let others := s.slots.filter fun o => o.key != slot.key
  let s := { s with shared := turn.shared, current := some slot.key }
  let s := if p.isFinished turn.task then
      { s with slots := others, finished := (slot.key, turn.task) :: s.finished }
    -- A task that has taken a step waits behind all others.
    else { s with slots := others ++ [⟨slot.key, s.nextStamp, turn.task⟩] }
  { s with nextStamp := s.nextStamp + 1 }.add turn.started

/-- Takes the tasks that can no longer go on out of the queue, and puts those that have become able
    to at its end. -/
def refresh (p : Process σ τ) (s : Schedule σ τ) : Schedule σ τ :=
  let able := (s.slots.filter (s.isReady p)).mergeSort fun a b => a.stamp ≤ b.stamp
  let keys := able.map (·.key)
  let old := s.queue.filter keys.contains
  { s with queue := old ++ keys.filter fun k => !old.contains k && s.current != some k }

/-- The task of the current turn, if it can go on. -/
def continuing? (p : Process σ τ) (s : Schedule σ τ) : Option (Slot τ) :=
  (s.current.bind s.slot?).filter (s.isReady p)

/-- The next task in the queue, the foreground task last. -/
def next? (s : Schedule σ τ) : Option (Slot τ) :=
  ((s.queue.find? fun key => some key != s.foreground) <|> s.queue.head?).bind s.slot?

/-- The task that has waited for the disk the longest. -/
def waitingForDisk? (p : Process σ τ) (s : Schedule σ τ) : Option (Slot τ) :=
  ((s.slots.filter fun slot => s.waitOf p slot == .disk).mergeSort
    fun a b => a.stamp ≤ b.stamp).head?

/-- The next time that a task waits for. -/
def nextTime? (p : Process σ τ) (s : Schedule σ τ) : Option Nat :=
  (s.slots.filterMap fun slot =>
    match s.waitOf p slot with
    | .change due => due
    | _ => none).min?

/-- What happens next; none if nothing can. -/
def advance? (p : Process σ τ) (s : Schedule σ τ) : Option (Schedule σ τ) :=
  let s := s.refresh p
  match s.continuing? p with
  | some slot => some (s.step p slot)
  | none =>
    match s.next? with
    | some slot => some ({ s with queue := s.queue.erase slot.key }.step p slot)
    | none =>
      -- The disk answers only when no task can go on, and time passes only after that.
      match s.waitingForDisk? p with
      | some slot => some (s.step p slot)
      | none => (s.nextTime? p).map fun t => { s with now := t, current := s.foreground, queue := [] }

/-- Lets things happen, at most `fuel` of them, until the schedule is as wanted. -/
def run (p : Process σ τ) (wanted : Schedule σ τ → Bool) :
    Nat → Schedule σ τ → Schedule σ τ
  | 0, s => s
  | fuel + 1, s =>
    if wanted s then s
    else
      match s.advance? p with
      | some s => s.run p wanted fuel
      | none => s

/-- Starts a task as the foreground task; it gets the turn. -/
def enter (s : Schedule σ τ) (task : τ) : Schedule σ τ :=
  { s with current := some s.nextKey, foreground := some s.nextKey }.add [task]

/-- The end of a task, if it has come to it. -/
def result? (s : Schedule σ τ) (key : TaskKey) : Option τ := s.finished.lookup key

/-- How many things may happen while one foreground task runs. -/
def patience : Nat := 1000000000

/-- Runs a task in the foreground to its end; none if it does not come to one. -/
def perform (p : Process σ τ) (s : Schedule σ τ) (task : τ) : Option τ × Schedule σ τ :=
  let key := s.nextKey
  let s := (s.enter task).run p (fun s => (s.result? key).isSome) patience
  (s.result? key, { s with foreground := none, finished := [] })

end Schedule

end Reachability
