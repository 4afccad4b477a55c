import Reachability.Log.Entry

set_option autoImplicit false

/-! # The index

What the entries of a log add up to: the tasks, and the number for the next one. -/

namespace Reachability

/-- Tasks by number, and the number for the next task. -/
structure Index where
  /-- The tasks. -/
  tasks : Table TaskId Task
  /-- The number that the next task gets; the greatest number stands for none. -/
  nextId : TaskId
  deriving DecidableEq

namespace Index

/-- The greatest number. No task that is created gets it. -/
def lastId : TaskId := 0xFFFFFFFFFFFFFFFF

/-- The number after another, the greatest one after itself. -/
def idAfter (id : TaskId) : TaskId := if id = lastId then lastId else id + 1

/-- The index of the empty log. -/
def initial : Index := ⟨.empty, 1⟩

/-- The tasks after one of them, if it is known, has got a result. -/
def setResult (tasks : Table TaskId Task) (id : TaskId) (result : Results) : Table TaskId Task :=
  match tasks.get? id with
  | some t => tasks.insert id { t with result }
  | none => tasks

/-- The index after one more change. A result for an unknown task does not count. -/
def apply (i : Index) : Log.Change → Index
  | .create t => ⟨i.tasks.insert t.id t, max i.nextId (idAfter t.id)⟩
  | .update id result => { i with tasks := setResult i.tasks id result }

/-- The index of a log with the given entries. -/
def ofEntries (es : List Log.Entry) : Index := es.foldl (fun i e => i.apply e.change) initial

/-- The number of tasks, and of those that have a result. -/
def counts (i : Index) : Nat × Nat :=
  (i.tasks.size, (i.tasks.values.filter Task.isCompleted).length)

/-- The tasks with the given numbers, in that order. Unknown numbers are passed over. -/
def select (i : Index) (ids : List TaskId) : List Task := ids.filterMap i.tasks.get?

end Index

end Reachability
