import Reachability.Proofs.Log.Segment
import Reachability.Store.Basic

set_option autoImplicit false

/-! # The lines of a log

Entries come from a store, which stamps them with the time of a clock, or from bytes that were read
before. Either way they are stamped with a point in time (`Arises.valid`), so any number of them is
read back from their lines, in order and to the last byte (`parse_lines`). -/

namespace Reachability.Log

namespace Entry

/-- The entries that there are: those that a store makes of a task or of a result, and those that
    can be read from bytes. A clock shows points in time only. -/
inductive Arises : Entry → Prop where
  | created (moment : Moment) (task : Task) (h : moment.stamp.Valid) :
      Arises (Store.createEntry moment task)
  | updated (moment : Moment) (id : TaskId) (result : Results) (h : moment.stamp.Valid) :
      Arises (Store.updateEntry moment id result)
  | decoded {bs : List UInt8} {e : Entry} (h : ofBytes? bs = some e) : Arises e

/-- Whatever is read as an entry has a stamp of the calendar. -/
theorem valid_of_ofBytes? {bs : List UInt8} {e : Entry} (h : ofBytes? bs = some e) : e.Valid := by
  obtain ⟨j, -, h⟩ := Option.bind_eq_some_iff.1 h
  simp only [ofJson?, Option.bind_eq_bind, Option.bind_eq_some_iff] at h
  obtain ⟨fields, -, h⟩ := h
  split at h
  · simp only [Option.bind_eq_some_iff] at h
    obtain ⟨_, -, _, -, text, -, stamp, hstamp, change, -, he⟩ := h
    cases he
    exact Timestamp.valid_of_parse? hstamp
  · cases h

theorem Arises.valid {e : Entry} (h : e.Arises) : e.Valid := by
  cases h with
  | created moment task h => exact h
  | updated moment id result h => exact h
  | decoded h => exact valid_of_ofBytes? h

end Entry

namespace Segment

/-- Every entry is read back from its bytes, which are no blank line and stay on one line. So a
    segment that holds the lines of entries is read as just these entries, in their order; nothing
    of it is torn, and it is clean to its end. -/
theorem parse_lines (es : List Entry) (h : ∀ e ∈ es, e.Arises) :
    (∀ e ∈ es, Entry.ofBytes? e.bytes = some e ∧ newline ∉ e.bytes ∧ isBlank e.bytes = false) ∧
      parse (es.flatMap fun e => e.bytes ++ [newline]) =
        .ok ⟨es, false, (es.flatMap fun e => e.bytes ++ [newline]).length, true⟩ := by
  refine ⟨fun e he => ?_, parse_bytesOf fun e he => (h e he).valid⟩
  exact ⟨Entry.ofBytes?_bytes (h e he).valid, newline_not_mem_bytes e,
    isBlank_of_head (head?_bytes e)⟩

/-- The creation of a task with the greatest number, whose links hold a quote, a backslash, line
    breaks, control characters and characters of two and of four bytes, and its result, read in a
    leap second. -/
theorem parse_lines_of_any_text :
    let links := ["\"\\/\n", "\r\t\x08\x0c\x00\x1f\x7f", "é😀"]
    let created := Store.createEntry ⟨0, ⟨⟨2024, 2, 29⟩, 1, 2, 3, 123456789⟩, ⟨2024, 2, 29⟩⟩
      ⟨Index.lastId, links, .empty⟩
    let updated : Entry := ⟨.update Index.lastId (.ofList (links.map (·, .available))),
      ⟨⟨-4, 12, 31⟩, 23, 59, 59, 1500000000⟩⟩
    parse (created.bytes ++ [newline] ++ (updated.bytes ++ [newline])) =
      .ok ⟨[created, updated], false,
        (created.bytes ++ [newline] ++ (updated.bytes ++ [newline])).length, true⟩ := by
  intro links created updated
  have hcreated : created.Arises := .created _ _
    ⟨by decide, by decide, by decide, by decide, by decide, by decide⟩
  have hupdated : updated.Arises := .decoded (Entry.ofBytes?_bytes (e := updated)
    ⟨by decide, by decide, by decide, by decide, by decide, by decide⟩)
  have hboth : ∀ e ∈ [created, updated], e.Arises := by
    intro e he
    rcases List.mem_cons.1 he with rfl | he
    · exact hcreated
    · rw [List.mem_singleton.1 he]
      exact hupdated
  simpa using (parse_lines [created, updated] hboth).2

end Segment

end Reachability.Log
