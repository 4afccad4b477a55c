import Reachability.Json.Quoted
import Reachability.Json.Value
import Reachability.Table

set_option autoImplicit false

/-! # Tasks

A task is a batch of links that was submitted together, with the status of each link once the batch
has been checked. -/

namespace Reachability

/-- What the check of a link found. -/
inductive LinkStatus where
  | available
  | notAvailable
  deriving DecidableEq

namespace LinkStatus

/-- The word for a status, in reports and in the log. -/
def word : LinkStatus → String
  | available => "available"
  | notAvailable => "not available"

/-- The status with the given word. -/
def ofWord? (s : String) : Option LinkStatus :=
  if s = "available" then some .available
  else if s = "not available" then some .notAvailable
  else none

/-- Whether a link was found available. -/
def isAvailable : LinkStatus → Bool
  | available => true
  | notAvailable => false

end LinkStatus

/-- The statuses of links, by link. -/
abbrev Results := Table String LinkStatus

/-- The number of a task. -/
abbrev TaskId := UInt64

/-- A batch of links. -/
structure Task where
  /-- The number that the store gave the task. -/
  id : TaskId
  /-- The links in the order in which they were submitted, repetitions included. -/
  links : List String
  /-- What was found; empty until the batch has been checked. -/
  result : Results
  deriving DecidableEq

namespace Task

/-- A task that has not been checked yet. -/
def fresh (id : TaskId) (links : List String) : Task := ⟨id, links, .empty⟩

/-- Whether a result has been stored. -/
def isCompleted (t : Task) : Bool := !t.result.isEmpty

/-- The status of a link as a reader sees it: without a result it is not available. -/
def statusOf (t : Task) (link : String) : LinkStatus := (t.result.get? link).getD .notAvailable

end Task

/-! ## Reading

A status is a word, or an object with that word as its only key and an empty value. What counts as
empty is up to the reader: `isUnit`. -/

namespace Json

/-- Only `null` is empty. -/
def isNull : Json → Bool
  | .null => true
  | _ => false

/-- Both `null` and the object without fields are empty. -/
def isVoid : Json → Bool
  | .null => true
  | .object [] => true
  | _ => false

end Json

/-- Reads a status. -/
def LinkStatus.ofJson? (isUnit : Json → Bool) : Json → Option LinkStatus
  | .text s => s.bind LinkStatus.ofWord?
  | .object [(k, v)] => if isUnit v then k.bind LinkStatus.ofWord? else none
  | _ => none

/-- Reads the statuses of links. Of several for one link the last counts. -/
def Results.ofJson? (isUnit : Json → Bool) (j : Json) : Option Results := do
  let fields ← j.fields?
  let entries ← fields.mapM fun (k, v) => (LinkStatus.ofJson? isUnit v).map (k, ·)
  some (Table.ofList entries)

namespace Task

/-- Puts a task together from the parts that were read. -/
def ofParts? (isUnit : Json → Bool) (id links : Json) (result : Option Json) : Option Task := do
  let id ← id.word?
  let links ← (← links.items?).mapM Json.text?
  let result ← match result with
    | some r => Results.ofJson? isUnit r
    | none => some .empty
  some ⟨id, links, result⟩

/-- Reads a task: an object with `id`, `links` and perhaps `result`, each at most once, or the array
    of these. -/
def ofJson? (isUnit : Json → Bool) : Json → Option Task
  | .array [id, links] => ofParts? isUnit id links none
  | .array [id, links, result] => ofParts? isUnit id links (some result)
  | .object fields => do
    let fields ← (Json.object fields).fields?
    let id ← Json.field? "id" fields
    let links ← Json.field? "links" fields
    let result ← Json.field? "result" fields
    ofParts? isUnit (← id) (← links) result
  | _ => none

end Task

/-! ## Writing -/

/-- Writes a status. -/
def LinkStatus.json (s : LinkStatus) : List Char := Json.quoted s.word

/-- Writes the statuses of links, by ascending link. -/
def Results.json (r : Results) : List Char :=
  Json.braced (r.entries.map fun (link, status) => Json.field link status.json)

/-- Writes a task. -/
def Task.json (t : Task) : List Char :=
  Json.braced [
    Json.field "id" (Text.decimal t.id.toNat),
    Json.field "links" (Json.bracketed (t.links.map Json.quoted)),
    Json.field "result" t.result.json]

end Reachability
