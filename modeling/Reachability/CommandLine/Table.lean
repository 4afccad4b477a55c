import Reachability.Engine.Batch
import Reachability.Json.Indented

set_option autoImplicit false

/-! # What is printed of a batch and of a store

The outcome of a batch as a table or as JSON, and the number of tasks in a store. -/

namespace Reachability.CommandLine

/-! ## Tables -/

/-- A text with blanks after it, so that it has at least `width` characters. -/
def padEnd (width : Nat) (s : String) : String :=
  s ++ String.ofList (List.replicate (width - s.length) ' ')

/-- A text in at most `width + 3` characters: the first `width` and three points if it is longer
    than `width`. -/
def shorten (width : Nat) (s : String) : String :=
  if width < s.length then String.ofList (s.toList.take width) ++ "..." else s

/-- A row of the table. -/
def row (link status : String) : String := padEnd 60 link ++ " " ++ padEnd 15 status

/-- A status in the table. -/
def statusMark : LinkStatus → String
  | .available => "✅ AVAILABLE"
  | .notAvailable => "❌ NOT AVAILABLE"

/-- The status of a link in an outcome. -/
def statusIn (o : Engine.Outcome) (link : String) : LinkStatus :=
  (o.results.get? link).getD .notAvailable

/-- A number in decimal. -/
def count (n : Nat) : String := String.ofList (Text.decimal n)

/-- Ends each line. -/
def lines (ls : List String) : String := String.join (ls.map (· ++ "\n"))

/-- The lines below the table. -/
def summary (o : Engine.Outcome) : List String :=
  ["", "📊 Summary:",
    "   ✅ Available: " ++ count (o.results.entries.length - o.unavailable),
    "   ❌ Not available: " ++ count o.unavailable] ++
  if o.deferred then ["   ⏳ Result not yet persisted, retrying in the background"] else []

/-- The outcome as a table, with each link once, in the order in which they were submitted. -/
def table (links : List String) (o : Engine.Outcome) : String :=
  lines (("Task #" ++ count o.id.toNat) :: row "LINK" "STATUS" ::
    String.ofList (List.replicate 75 '=') ::
    links.eraseDups.map (fun link => row (shorten 57 link) (statusMark (statusIn o link))) ++
    summary o)

/-! ## JSON -/

/-- The outcome as JSON. -/
def outcomeJson (o : Engine.Outcome) : List Char :=
  Json.indented 0 [
    ("links_num", Text.decimal o.id.toNat),
    ("links", Json.indented 1 (o.results.entries.map fun (link, status) => (link, status.json))),
    ("persisted", (if o.deferred then "false" else "true").toList)]

/-! ## Numbers of tasks -/

/-- How many tasks there are, and how many of them have a result. -/
def statistics (i : Index) : String :=
  lines ["Tasks:     " ++ count i.counts.1, "Completed: " ++ count i.counts.2]

end Reachability.CommandLine
