import Reachability.Log.File
import Reachability.Store.Index

set_option autoImplicit false

/-! # The store

The store keeps tasks in a log and an index of them in memory. An operation changes the index only
when its entry is in the log. A number that was given to a task is spent, even if the task could not
be written. -/

namespace Reachability

/-- A log and the index of its tasks. -/
structure Store where
  /-- The log. -/
  log : Log
  /-- The index. -/
  index : Index
  deriving DecidableEq

namespace Store

open Disk (Program)

/-- The store with an empty index. -/
def fresh (log : Log) : Store := ⟨log, .initial⟩

/-- Reads the index from the log. -/
def load (s : Store) : Log.Action Store := do
  let replay ← s.log.replay
  pure { s with index := .ofEntries replay.entries }

/-- The store on a log, with what that holds. -/
def opened (log : Log) : Log.Action Store := (fresh log).load

/-! ## Creating a task -/

/-- Takes the next number, if one is left. -/
def reserve? (s : Store) : Option (TaskId × Store) :=
  let id := s.index.nextId
  if id = Index.lastId then none
  else some (id, { s with index := { s.index with nextId := id + 1 } })

/-- The entry that creates a task. -/
def createEntry (moment : Moment) (task : Task) : Log.Entry := ⟨.create task, moment.stamp⟩

/-- The store after a task has been written. -/
def addTask (s : Store) (task : Task) : Store :=
  { s with index := { s.index with tasks := s.index.tasks.insert task.id task } }

/-- Gives links a number and writes them as a task. -/
def create (s : Store) (moment : Moment) (links : List String) :
    Program (Except StoreError Task × Store) :=
  match s.reserve? with
  | none => .done (.error .idsExhausted, s)
  | some (id, s) =>
    let task := Task.fresh id links
    (s.log.append moment (createEntry moment task)).run.bind fun
      | .ok () => .done (.ok task, s.addTask task)
      | .error e => .done (.error e, s)

/-! ## Storing a result -/

/-- The entry that stores a result. -/
def updateEntry (moment : Moment) (id : TaskId) (result : Results) : Log.Entry :=
  ⟨.update id result, moment.stamp⟩

/-- The store after a result has been written. -/
def setResult (s : Store) (id : TaskId) (result : Results) : Store :=
  { s with index := { s.index with tasks := Index.setResult s.index.tasks id result } }

/-- Writes the result of a task. -/
def update (s : Store) (moment : Moment) (id : TaskId) (result : Results) :
    Program (Except StoreError Unit × Store) :=
  if s.index.tasks.contains id then
    (s.log.append moment (updateEntry moment id result)).run.bind fun
      | .ok () => .done (.ok (), s.setResult id result)
      | .error e => .done (.error e, s)
  else .done (.error (.notFound id), s)

/-! ## Reading -/

/-- The tasks with the given numbers. -/
def get (s : Store) (ids : List TaskId) : List Task := s.index.select ids

end Store

end Reachability
