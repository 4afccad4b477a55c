import Reachability.Json.Reader
import Reachability.Task
import Reachability.Time.Timestamp

set_option autoImplicit false

/-! # Log entries

An entry records one change of the stored tasks and when it was made. It is written as one JSON
object without blanks, which is never a prefix of another text that can be read. -/

namespace Reachability.Log

/-- A change of the stored tasks. -/
inductive Change where
  | create (task : Task)
  | update (id : TaskId) (result : Results)
  deriving DecidableEq

/-- A change and its time. -/
structure Entry where
  /-- The change. -/
  change : Change
  /-- When it was made. -/
  stamp : Timestamp
  deriving DecidableEq

namespace Entry

/-! ## Writing -/

/-- The fields that tell the change. -/
def changeFields : Change → List (List Char)
  | .create task => [Json.field "op" (Json.quoted "create"), Json.field "task" task.json]
  | .update id result =>
    [Json.field "op" (Json.quoted "update"), Json.field "task_id" (Text.decimal id.toNat),
      Json.field "result" result.json]

/-- Writes an entry. -/
def json (e : Entry) : List Char :=
  Json.braced (changeFields e.change ++
    [Json.field "ts" (Json.quoted (String.ofList e.stamp.text))])

/-- The bytes of an entry. -/
def bytes (e : Entry) : List UInt8 := Text.utf8 e.json

/-! ## Reading -/

/-- The kinds of change. -/
inductive Kind where
  | create
  | update
  deriving DecidableEq

/-- The kind that a tag names, by its word or its number. -/
def kind? : Json → Option Kind
  | .text (some s) =>
    if s = "create" then some .create else if s = "update" then some .update else none
  | .number n =>
    if n.natural? = some 0 then some .create
    else if n.natural? = some 1 then some .update
    else none
  | _ => none

/-- The deepest nesting that is read. -/
def depthLimit : Nat := 127

/-- Reads the change from the fields of an entry. Fields that belong to the other kind of change do
    not matter. -/
def change? (fields : List (String × Json)) : Option Change := do
  match ← kind? (← ← Json.field? "op" fields) with
  | .create =>
    let task ← ← Json.field? "task" fields
    (Task.ofJson? Json.isVoid task).map .create
  | .update =>
    let id ← ← Json.field? "task_id" fields
    let result ← ← Json.field? "result" fields
    let id ← id.word?
    (Results.ofJson? Json.isVoid result).map (.update id)

/-- Reads an entry from a value. The value has to be readable as a whole, also in fields that do not
    matter. -/
def ofJson? (j : Json) : Option Entry := do
  let fields ← j.fields?
  if j.depth ≤ depthLimit ∧ j.isReadable then
    let stamp ← Timestamp.parse? (← (← ← Json.field? "ts" fields).text?)
    let change ← change? fields
    some ⟨change, stamp⟩
  else none

/-- Reads an entry from its bytes. -/
def ofBytes? (bs : List UInt8) : Option Entry := (Json.parse? bs).bind ofJson?

end Entry

end Reachability.Log
