import Reachability.Net.Network
import Reachability.Permits
import Reachability.Store.Basic

set_option autoImplicit false

/-! # The store among tasks

Many tasks call on one store. Those that write take turns: a lock goes from one to the next in the
order in which they ask. A change becomes visible only when its line is in the log. -/

namespace Reachability

/-- What a store is asked for. -/
inductive StoreCall where
  | create (links : List String)
  | update (id : TaskId) (result : Results)
  | read (ids : List TaskId)
  deriving DecidableEq

/-- What a store answers. -/
inductive StoreReply where
  | task (value : Task)
  | stored
  | tasks (value : List Task)
  deriving DecidableEq

/-- What a store answers, or why it does not. -/
abbrev StoreAnswer := Except StoreError StoreReply

/-- What stands before a store: it may answer a call itself, knowing the calls before it, the last
    one first. -/
structure StoreFront where
  /-- The answer to a call; none if the call goes through to the store. -/
  answer : List StoreCall → StoreCall → Option (Delayed StoreAnswer)

/-- Nothing before the store. -/
def StoreFront.absent : StoreFront := ⟨fun _ _ => none⟩

/-- A call that came in. -/
structure StoreReceipt where
  /-- When it came in. -/
  time : Nat
  /-- What was asked for. -/
  call : StoreCall
  /-- What was answered before the store, if anything. -/
  answer : Option StoreAnswer

/-- A store with its disk, its lock and the calls that came in, the last one first. -/
structure StoreService where
  /-- The store. -/
  store : Store
  /-- The disk that the log is on. -/
  disk : Disk
  /-- The lock of those who write. -/
  writer : Permits
  /-- The calls so far. -/
  receipts : List StoreReceipt

namespace StoreService

/-- A service before the first call. -/
def ofStore (store : Store) (disk : Disk) : StoreService := ⟨store, disk, .lock, []⟩

/-- A change on its way to the log. -/
inductive Pending where
  | create (task : Task)
  | update (id : TaskId) (result : Results)
  deriving DecidableEq

/-- The entry of a change. -/
def Pending.entry (moment : Moment) : Pending → Log.Entry
  | create task => Store.createEntry moment task
  | update id result => Store.updateEntry moment id result

/-- The store with a change made visible. -/
def Pending.publish (store : Store) : Pending → Store
  | create task => store.addTask task
  | update id result => store.setResult id result

/-- The answer when a change has been made. -/
def Pending.reply : Pending → StoreReply
  | create task => .task task
  | update .. => .stored

/-- How far a call has come. -/
inductive Visit where
  | arriving (call : StoreCall)
  | delayed (answer : StoreAnswer) (finish : Option Nat)
  | inLine (call : StoreCall)
  | writing (change : Pending)
  | written (change : Pending) (outcome : Except StoreError Unit)
  | answered (answer : StoreAnswer)

/-- What a call waits for. -/
def Visit.wait (now : Nat) (key : TaskKey) (s : StoreService) : Visit → Wait
  | .delayed _ finish => if finish.any (· ≤ now) then .nothing else .change finish
  | .inLine _ => if s.writer.holds key then .nothing else .change none
  | .writing _ => .disk
  | _ => .nothing

/-- Gives the lock back and answers. -/
def leave (s : StoreService) (key : TaskKey) (answer : StoreAnswer) : StoreService × Visit :=
  ({ s with writer := s.writer.release key }, .answered answer)

/-- Takes a call that comes in. -/
def receive (front : StoreFront) (now : Nat) (key : TaskKey) (s : StoreService)
    (call : StoreCall) : StoreService × Visit :=
  let before := front.answer (s.receipts.map (·.call)) call
  let s := { s with receipts := ⟨now, call, before.map (·.value)⟩ :: s.receipts }
  match before, call with
  | some d, _ => (s, .delayed d.value (d.finish now))
  | none, .read ids => (s, .answered (.ok (.tasks (s.store.get ids))))
  | none, call => ({ s with writer := s.writer.request key }, .inLine call)

/-- Looks at a call whose turn to write has come. -/
def prepare (key : TaskKey) (s : StoreService) : StoreCall → StoreService × Visit
  | .create links =>
    match s.store.reserve? with
    | none => s.leave key (.error .idsExhausted)
    | some (id, store) => ({ s with store }, .writing (.create (.fresh id links)))
  | .update id result =>
    if s.store.index.tasks.contains id then (s, .writing (.update id result))
    else s.leave key (.error (.notFound id))
  | .read ids => s.leave key (.ok (.tasks (s.store.get ids)))

/-- Writes a change to the log. -/
def write (moment : Moment) (s : StoreService) (change : Pending) : StoreService × Visit :=
  let (outcome, disk) :=
    (s.store.log.append moment (change.entry moment)).run.run moment.seconds s.disk
  ({ s with disk }, .written change outcome)

/-- Makes a change visible that has been written. -/
def settle (key : TaskKey) (s : StoreService) (change : Pending) :
    Except StoreError Unit → StoreService × Visit
  | .ok () => { s with store := change.publish s.store }.leave key (.ok change.reply)
  | .error e => s.leave key (.error e)

/-- One step of a call that need not wait. -/
def step (front : StoreFront) (moment : Moment) (now : Nat) (key : TaskKey) (s : StoreService) :
    Visit → StoreService × Visit
  | .arriving call => receive front now key s call
  | .delayed answer _ => (s, .answered answer)
  | .inLine call => prepare key s call
  | .writing change => write moment s change
  | .written change outcome => settle key s change outcome
  | .answered answer => (s, .answered answer)

end StoreService

end Reachability
