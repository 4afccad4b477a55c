import Reachability.Store.Error

set_option autoImplicit false

/-! # Reports

A report lists tasks with the status of each of their links, one line a link. -/

namespace Reachability.Report

/-- The lines of one task: a blank one, its heading, and one for each link. -/
def taskLines (t : Task) : List String :=
  "" :: ("Task #" ++ String.ofList (Text.decimal t.id.toNat)) ::
    t.links.map fun link => "  " ++ link ++ " - " ++ (t.statusOf link).word

/-- The report on some tasks, in their order. -/
def text (ts : List Task) : String :=
  String.join (("Links report" :: ts.flatMap taskLines).map (· ++ "\n"))

/-- Why there is no report. -/
inductive Error where
  | cancelled
  | queueClosed
  | store (cause : StoreError)
  | render (reason : String)
  deriving DecidableEq

/-- The error in words. -/
def Error.message : Error → String
  | cancelled => "report generation cancelled: deadline exceeded"
  | queueClosed => "report queue is closed"
  | store cause => "failed to load tasks: " ++ cause.message
  | render reason => "failed to render report: " ++ reason

/-- Whether the deadline was to blame. -/
def Error.isCancelled : Error → Bool
  | cancelled => true
  | _ => false

end Reachability.Report
