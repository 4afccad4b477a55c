import Mathlib.Algebra.Ring.Nat
import Reachability.Proofs.Report.Text
import Reachability.Proofs.Text.Numeral

set_option autoImplicit false

/-! # The lines of a report

A link is written into a report as it was submitted. So each newline in a link breaks its line, and
what stands behind the newline is a line of its own: it can look like the line of a link that no
task has (`forged_row`). The main result says that newlines are all there is to it: the report has
one line more than the format asks for with each newline in a link, and without newlines the lines
under the heading of a task tell nothing but the statuses of its links, whatever else the links hold
(`rows_true`). -/

namespace Reachability

/-! ## Lines of a text -/

namespace Text

/-- The pieces of a text between its newlines. -/
def pieces (s : String) : List String := (s.toList.splitOn '\n').map String.ofList

/-- The lines of a text: the pieces that a newline ends. -/
def lines (s : String) : List String := (pieces s).dropLast

/-- The number of newlines in a text. -/
def newlines (s : String) : Nat := s.toList.count '\n'

theorem newlines_eq_zero_iff {s : String} : newlines s = 0 ↔ '\n' ∉ s.toList := List.count_eq_zero

theorem length_pieces (s : String) : (pieces s).length = newlines s + 1 := by
  rw [pieces, newlines, List.length_map]
  induction s.toList with
  | nil => rfl
  | cons c cs ih =>
      rw [List.splitOn_cons_eq_if_modifyHead, List.count_cons]
      by_cases hc : (c == '\n') = true
      · rw [if_pos hc, if_pos hc, List.length_cons, ih]
      · rw [if_neg hc, if_neg hc, List.length_modifyHead, ih]

theorem pieces_of_no_newline {s : String} (h : '\n' ∉ s.toList) : pieces s = [s] := by
  rw [pieces, List.splitOn_eq_singleton h, List.map_singleton, String.ofList_toList]

theorem pieces_append_newline (s rest : String) :
    pieces (s ++ "\n" ++ rest) = pieces s ++ pieces rest := by
  have h : (s ++ "\n" ++ rest).toList = s.toList ++ '\n' :: rest.toList := by
    simp only [String.toList_append, List.append_assoc]
    rfl
  rw [pieces, h, List.splitOn_append_cons_self, List.map_append, pieces, pieces]

/-- A text that is put together line by line has the lines that went into it, cut at their
    newlines. -/
theorem lines_join (ls : List String) :
    lines (String.join (ls.map (· ++ "\n"))) = ls.flatMap pieces := by
  have h : pieces (String.join (ls.map (· ++ "\n"))) = ls.flatMap pieces ++ [""] := by
    induction ls with
    | nil => rfl
    | cons l ls ih =>
        rw [List.map_cons, String.join_cons, pieces_append_newline, ih, List.flatMap_cons,
          List.append_assoc]
  rw [lines, h, List.dropLast_concat]

/-- Lines without newlines are found as they went in. -/
theorem lines_join_of_no_newline {ls : List String} (h : ∀ l ∈ ls, '\n' ∉ l.toList) :
    lines (String.join (ls.map (· ++ "\n"))) = ls := by
  rw [lines_join]
  induction ls with
  | nil => rfl
  | cons l ls ih =>
      rw [List.flatMap_cons, pieces_of_no_newline (h l List.mem_cons_self),
        ih fun l' hl' => h l' (List.mem_cons_of_mem l hl')]
      rfl

end Text

namespace Report

/-! ## Headings and rows -/

/-- The heading of a task. -/
def heading (id : TaskId) : String := "Task #" ++ String.ofList (Text.decimal id.toNat)

/-- The line of a link. -/
def row (link : String) (status : LinkStatus) : String := "  " ++ link ++ " - " ++ status.word

theorem taskLines_eq (t : Task) :
    taskLines t = "" :: heading t.id :: t.links.map fun link => row link (t.statusOf link) := rfl

theorem heading_injective {id id' : TaskId} (h : heading id = heading id') : id = id' := by
  have hdigits : Text.decimal id.toNat = Text.decimal id'.toNat :=
    String.ofList_injective ((String.append_right_inj _).1 h)
  have hnat : some id.toNat = some id'.toNat := by
    rw [← Text.natural?_decimal, ← Text.natural?_decimal, hdigits]
  exact UInt64.toNat_inj.1 (Option.some.inj hnat)

theorem heading_ne_empty (id : TaskId) : heading id ≠ "" := by
  intro h
  simpa [heading] using congrArg String.toList h

theorem row_ne_empty (link : String) (status : LinkStatus) : row link status ≠ "" := by
  intro h
  simpa [row] using congrArg String.toList h

/-- A heading starts with a letter and a row with a blank. -/
theorem row_ne_heading (link : String) (status : LinkStatus) (id : TaskId) :
    row link status ≠ heading id := by
  intro h
  simpa [row, heading] using congrArg String.toList h

/-- Neither status word ends the other with the dash before it, so a row can be read in one way
    only. -/
theorem row_injective {link link' : String} {status status' : LinkStatus}
    (h : row link status = row link' status') : link = link' ∧ status = status' := by
  -- Read from the right, the two words part before the dash is reached.
  have hrev := congrArg (fun s => s.toList.reverse) h
  cases status with
  | available =>
      cases status' with
      | available => simpa [row, LinkStatus.word, String.toList_inj] using hrev
      | notAvailable => simp [row, LinkStatus.word] at hrev
  | notAvailable =>
      cases status' with
      | available => simp [row, LinkStatus.word] at hrev
      | notAvailable => simpa [row, LinkStatus.word, String.toList_inj] using hrev

/-! ## What a reader finds -/

/-- A reader of some lines finds a link with a status under the heading of a task: there is no other
    heading between that heading and the row. -/
def Lists (ls : List String) (id : TaskId) (link : String) (status : LinkStatus) : Prop :=
  ∃ before between after, ls = before ++ heading id :: (between ++ row link status :: after) ∧
    ∀ id', heading id' ∉ between

theorem lists_append_right {ls rest : List String} {id : TaskId} {link : String}
    {status : LinkStatus} (h : Lists ls id link status) : Lists (ls ++ rest) id link status := by
  obtain ⟨before, between, after, rfl, hbetween⟩ := h
  exact ⟨before, between, after ++ rest, by simp only [List.append_assoc, List.cons_append],
    hbetween⟩

theorem lists_append_left {ls rest : List String} {id : TaskId} {link : String}
    {status : LinkStatus} (h : Lists rest id link status) : Lists (ls ++ rest) id link status := by
  obtain ⟨before, between, after, rfl, hbetween⟩ := h
  exact ⟨ls ++ before, between, after, by rw [List.append_assoc], hbetween⟩

theorem heading_not_mem_rows (id : TaskId) (links : List String) (status : String → LinkStatus) :
    heading id ∉ links.map fun link => row link (status link) := by
  intro h
  obtain ⟨link, -, heq⟩ := List.mem_map.1 h
  exact row_ne_heading link _ id heq

/-- Each link of a task stands under its heading. -/
theorem lists_taskLines {t : Task} {link : String} (hlink : link ∈ t.links) :
    Lists (taskLines t) t.id link (t.statusOf link) := by
  obtain ⟨earlier, later, hlinks⟩ := List.append_of_mem hlink
  refine ⟨[""], earlier.map fun link => row link (t.statusOf link),
    later.map fun link => row link (t.statusOf link), ?_, fun id' =>
      heading_not_mem_rows id' earlier t.statusOf⟩
  rw [taskLines_eq, hlinks, List.map_append, List.map_cons]
  rfl

theorem lists_flatMap {ts : List Task} {t : Task} {link : String} (ht : t ∈ ts)
    (hlink : link ∈ t.links) : Lists (ts.flatMap taskLines) t.id link (t.statusOf link) := by
  obtain ⟨earlier, later, rfl⟩ := List.append_of_mem ht
  rw [List.flatMap_append, List.flatMap_cons]
  exact lists_append_left (lists_append_right (lists_taskLines hlink))

/-- The blank line and the heading of a task keep it apart from the rows before it: a row that comes
    before the next heading is one of the rows at the front. -/
theorem row_mem_of_no_heading {rows between after : List String} {ts : List Task} {link : String}
    {status : LinkStatus}
    (h : rows ++ ts.flatMap taskLines = between ++ row link status :: after)
    (hbetween : ∀ id', heading id' ∉ between) : row link status ∈ rows := by
  rcases List.append_eq_append_iff.1 h with ⟨gone, hgone, hrest⟩ | ⟨left, hrows, hrest⟩
  · exfalso
    cases ts with
    | nil => simp at hrest
    | cons t ts =>
        rw [List.flatMap_cons, taskLines_eq] at hrest
        cases gone with
        | nil => exact row_ne_empty link status (List.cons.inj hrest).1.symm
        | cons blank gone =>
            have htail := (List.cons.inj hrest).2
            cases gone with
            | nil => exact row_ne_heading link status t.id (List.cons.inj htail).1.symm
            | cons head gone =>
                refine hbetween t.id ?_
                rw [hgone, (List.cons.inj htail).1]
                simp
  · cases left with
    | nil =>
        exfalso
        cases ts with
        | nil => simp at hrest
        | cons t ts =>
            rw [List.flatMap_cons, taskLines_eq] at hrest
            exact row_ne_empty link status (List.cons.inj hrest).1
    | cons first left =>
        rw [hrows, (List.cons.inj hrest).1]
        exact List.mem_append_right _ List.mem_cons_self

/-- The only heading among the lines of a task is its second line. -/
theorem taskLines_eq_heading {t : Task} {id : TaskId} {before rest : List String}
    (h : taskLines t = before ++ heading id :: rest) :
    id = t.id ∧ rest = t.links.map fun link => row link (t.statusOf link) := by
  rw [taskLines_eq] at h
  cases before with
  | nil => exact absurd (List.cons.inj h).1.symm (heading_ne_empty id)
  | cons blank before =>
      have htail := (List.cons.inj h).2
      cases before with
      | nil => exact ⟨heading_injective (List.cons.inj htail).1.symm, (List.cons.inj htail).2.symm⟩
      | cons head before =>
          refine absurd ?_ (heading_not_mem_rows id t.links t.statusOf)
          rw [(List.cons.inj htail).2]
          simp

/-- What a reader finds in the lines of some tasks is so. -/
theorem exists_of_lists {ts : List Task} {id : TaskId} {link : String} {status : LinkStatus}
    (h : Lists (ts.flatMap taskLines) id link status) :
    ∃ t ∈ ts, t.id = id ∧ link ∈ t.links ∧ t.statusOf link = status := by
  induction ts with
  | nil =>
      obtain ⟨before, between, after, hnil, -⟩ := h
      simp at hnil
  | cons t ts ih =>
      obtain ⟨before, between, after, hlines, hbetween⟩ := h
      have later (front : List String)
          (hrest : ts.flatMap taskLines =
            front ++ heading id :: (between ++ row link status :: after)) :
          ∃ t' ∈ t :: ts, t'.id = id ∧ link ∈ t'.links ∧ t'.statusOf link = status := by
        obtain ⟨t', ht', hfound⟩ := ih ⟨front, between, after, hrest, hbetween⟩
        exact ⟨t', List.mem_cons_of_mem t ht', hfound⟩
      rw [List.flatMap_cons] at hlines
      rcases List.append_eq_append_iff.1 hlines with ⟨front, -, hrest⟩ | ⟨left, hleft, hrest⟩
      · exact later front hrest
      · cases left with
        | nil => exact later [] hrest.symm
        | cons first rows =>
            obtain ⟨hfirst, htail⟩ := List.cons.inj hrest
            rw [← hfirst] at hleft
            obtain ⟨rfl, hrows⟩ := taskLines_eq_heading hleft
            have hmem := row_mem_of_no_heading htail.symm hbetween
            rw [hrows] at hmem
            obtain ⟨link', hlink', hrow⟩ := List.mem_map.1 hmem
            obtain ⟨rfl, hstatus⟩ := row_injective hrow
            exact ⟨t, List.mem_cons_self, rfl, hlink', hstatus⟩

/-! ## Links with newlines -/

theorem no_newline_heading (id : TaskId) : '\n' ∉ (heading id).toList := by
  intro h
  have hdigit : '\n' ∈ Text.decimal id.toNat := by simpa [heading] using h
  exact absurd (Text.isDigit_of_mem_decimal hdigit) (by decide)

theorem newlines_row (link : String) (status : LinkStatus) :
    Text.newlines (row link status) = Text.newlines link := by
  cases status <;> simp [Text.newlines, row, LinkStatus.word]

/-- The lines of a task and those that the newlines in its links add. -/
theorem length_pieces_taskLines (t : Task) :
    ((taskLines t).flatMap Text.pieces).length =
      2 + t.links.length + (t.links.map Text.newlines).sum := by
  have hrows : ∀ links : List String,
      ((links.map fun link => row link (t.statusOf link)).flatMap Text.pieces).length =
        links.length + (links.map Text.newlines).sum := by
    intro links
    induction links with
    | nil => rfl
    | cons link links ih =>
        rw [List.map_cons, List.flatMap_cons, List.length_append, ih, Text.length_pieces,
          newlines_row, List.map_cons, List.sum_cons, List.length_cons]
        omega
  rw [taskLines_eq, List.flatMap_cons, List.flatMap_cons, List.length_append, List.length_append,
    hrows, Text.pieces_of_no_newline (no_newline_heading t.id)]
  have hblank : (Text.pieces "").length = 1 := rfl
  rw [hblank, List.length_singleton]
  omega

/-- A report has a title, two lines for each task and one for each link, and one more for each
    newline in a link. -/
theorem length_lines_text (ts : List Task) :
    (Text.lines (text ts)).length = 1 + (ts.map fun t => 2 + t.links.length).sum +
      (ts.map fun t => (t.links.map Text.newlines).sum).sum := by
  rw [text, Text.lines_join, List.flatMap_cons, List.length_append]
  have htitle : (Text.pieces "Links report").length = 1 := rfl
  have htasks : ((ts.flatMap taskLines).flatMap Text.pieces).length =
      (ts.map fun t => 2 + t.links.length).sum +
        (ts.map fun t => (t.links.map Text.newlines).sum).sum := by
    induction ts with
    | nil => rfl
    | cons t ts ih =>
        rw [List.flatMap_cons, List.flatMap_append, List.length_append, ih, length_pieces_taskLines,
          List.map_cons, List.map_cons, List.sum_cons, List.sum_cons]
        omega
  rw [htitle, htasks]
  omega

/-- A report whose links hold no newlines has the lines it was put together from. -/
theorem lines_text {ts : List Task} (h : ∀ t ∈ ts, ∀ link ∈ t.links, '\n' ∉ link.toList) :
    Text.lines (text ts) = "Links report" :: ts.flatMap taskLines := by
  refine Text.lines_join_of_no_newline fun line hline => ?_
  rcases List.mem_cons.1 hline with rfl | hline
  · decide
  · obtain ⟨t, ht, hline⟩ := List.mem_flatMap.1 hline
    rw [taskLines_eq] at hline
    rcases List.mem_cons.1 hline with rfl | hline
    · decide
    · rcases List.mem_cons.1 hline with rfl | hline
      · exact no_newline_heading t.id
      · obtain ⟨link, hlink, rfl⟩ := List.mem_map.1 hline
        rw [← Text.newlines_eq_zero_iff, newlines_row, Text.newlines_eq_zero_iff]
        exact h t ht link hlink

/-- The title is no heading, so it tells nothing of a link. -/
theorem lists_title_cons {ls : List String} {id : TaskId} {link : String} {status : LinkStatus} :
    Lists ("Links report" :: ls) id link status ↔ Lists ls id link status := by
  constructor
  · rintro ⟨before, between, after, hlines, hbetween⟩
    cases before with
    | nil =>
        have htitle := congrArg String.toList (List.cons.inj hlines).1
        simp [heading] at htitle
    | cons first before => exact ⟨before, between, after, (List.cons.inj hlines).2, hbetween⟩
  · intro h
    have hbehind : Lists (["Links report"] ++ ls) id link status := lists_append_left h
    exact hbehind

/-- The lines of a report, for any tasks. There are as many as the format asks for and one more for
    each newline in a link. So the number is that of the format just if no link holds a newline, and
    then a reader finds a link with a status under the heading of a task just if a task with that
    number has the link and the link has that status. -/
theorem rows_true (ts : List Task) :
    (Text.lines (text ts)).length = 1 + (ts.map fun t => 2 + t.links.length).sum +
        (ts.map fun t => (t.links.map Text.newlines).sum).sum ∧
      ((Text.lines (text ts)).length = 1 + (ts.map fun t => 2 + t.links.length).sum ↔
        ∀ t ∈ ts, ∀ link ∈ t.links, '\n' ∉ link.toList) ∧
      ((∀ t ∈ ts, ∀ link ∈ t.links, '\n' ∉ link.toList) → ∀ id link status,
        Lists (Text.lines (text ts)) id link status ↔
          ∃ t ∈ ts, t.id = id ∧ link ∈ t.links ∧ t.statusOf link = status) := by
  refine ⟨length_lines_text ts, ?_, ?_⟩
  · rw [length_lines_text, Nat.add_eq_left, List.sum_eq_zero_iff_forall_eq_nat]
    simp only [List.mem_map, forall_exists_index, and_imp, forall_apply_eq_imp_iff₂,
      List.sum_eq_zero_iff_forall_eq_nat, Text.newlines_eq_zero_iff]
  · intro h id link status
    rw [lines_text h, lists_title_cons]
    constructor
    · exact exists_of_lists
    · rintro ⟨t, ht, rfl, hlink, rfl⟩
      exact lists_flatMap ht hlink

/-- Two tasks with links that look like parts of a report. -/
def dashed : List Task :=
  [⟨1, ["a.com - available", "Task #2"], .empty⟩, ⟨2, ["  b.com"], .ofList [("  b.com", .available)]⟩]

/-- A link that ends like a row is told from the row of another link. -/
theorem rows_true_dashed :
    (∀ t ∈ dashed, ∀ link ∈ t.links, '\n' ∉ link.toList) ∧
      Lists (Text.lines (text dashed)) 1 "a.com - available" .notAvailable ∧
      ¬ Lists (Text.lines (text dashed)) 1 "a.com" .available := by
  have h : ∀ t ∈ dashed, ∀ link ∈ t.links, '\n' ∉ link.toList := by decide
  have hreader := (rows_true dashed).2.2 h
  exact ⟨h, (hreader _ _ _).2 (by decide),
    fun hfound => absurd ((hreader _ _ _).1 hfound) (by decide)⟩

/-- One task with a link that brings lines of its own. -/
def forging : Task := ⟨1, ["a.com", "a.com\n  b.com - available\n"], .empty⟩

/-- A newline in a link lets a reader find a link that no task has. -/
theorem forged_row :
    Lists (Text.lines (text [forging])) 1 "b.com" .available ∧ "b.com" ∉ forging.links ∧
      (Text.lines (text [forging])).length = 7 := by
  have hlines : Text.lines (text [forging]) =
      ["Links report", "", "Task #1", "  a.com - not available", "  a.com", "  b.com - available",
        " - not available"] := by
    rw [text, Text.lines_join]
    decide +kernel
  rw [hlines]
  refine ⟨⟨["Links report", ""], ["  a.com - not available", "  a.com"], [" - not available"],
    ?_, ?_⟩,
    by decide, rfl⟩
  · decide +kernel
  · intro id' hmem
    rcases List.mem_cons.1 hmem with h | hmem
    · exact row_ne_heading "a.com" .notAvailable id' h.symm
    · have h := congrArg String.toList (List.mem_singleton.1 hmem)
      simp [heading] at h

end Report

end Reachability
