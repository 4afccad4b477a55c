import Reachability.Report.Text
import Reachability.Store.Basic

set_option autoImplicit false

/-! # The parts of a report

A report is its title line and then one part for each of its tasks. The part of a task depends on
its number, its links in their order, and the statuses of these. So a report on what a store has for
some numbers has the part of each number in turn (`Store.text_get`). -/

namespace Reachability

namespace Report

/-- The title line. -/
def title : String := "Links report\n"

/-- The part on one task: a blank line, its heading, and a line for each of its links. -/
def part (id : TaskId) (links : List String) (status : String → LinkStatus) : String :=
  "\n" ++ ("Task #" ++ String.ofList (Text.decimal id.toNat) ++ "\n" ++
    String.join (links.map fun link => "  " ++ link ++ " - " ++ (status link).word ++ "\n"))

theorem part_eq (t : Task) :
    String.join ((taskLines t).map (· ++ "\n")) = part t.id t.links t.statusOf := by
  simp only [taskLines, part, List.map_cons, List.map_map, Function.comp_def, String.join_cons,
    String.empty_append]

theorem text_eq (ts : List Task) :
    text ts = title ++ String.join (ts.map fun t => part t.id t.links t.statusOf) := by
  have htitle : "Links report" ++ "\n" = title := rfl
  rw [text, List.map_cons, String.join_cons, htitle]
  refine congrArg _ ?_
  induction ts with
  | nil => rfl
  | cons t ts ih =>
      rw [List.flatMap_cons, List.map_append, String.join_append, part_eq, ih, List.map_cons,
        String.join_cons]

end Report

namespace Store

variable {store store' : Store}

/-- The part on the task with a number; nothing if there is none. -/
def part (store : Store) (id : TaskId) : String :=
  match store.index.tasks.get? id with
  | some t => Report.part t.id t.links t.statusOf
  | none => ""

theorem part_of_some {id : TaskId} {t : Task} (h : store.index.tasks.get? id = some t) :
    store.part id = Report.part t.id t.links t.statusOf := by
  rw [part, h]

theorem part_of_none {id : TaskId} (h : store.index.tasks.get? id = none) :
    store.part id = "" := by
  rw [part, h]

theorem part_congr (h : store'.index.tasks = store.index.tasks) : store'.part = store.part := by
  funext id
  rw [part, part, h]

/-- A report on the tasks with some numbers. -/
theorem text_get (store : Store) (ids : List TaskId) :
    Report.text (store.get ids) = Report.title ++ String.join (ids.map store.part) := by
  rw [Report.text_eq, get, Index.select]
  refine congrArg _ ?_
  induction ids with
  | nil => rfl
  | cons id ids ih =>
      rw [List.filterMap_cons, List.map_cons, String.join_cons, ← ih]
      cases hget : store.index.tasks.get? id with
      | none => rw [part_of_none hget, String.empty_append]
      | some t => rw [part_of_some hget, List.map_cons, String.join_cons]

end Store

end Reachability
