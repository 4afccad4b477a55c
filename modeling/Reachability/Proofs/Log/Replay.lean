import Reachability.Proofs.Log.Segment
import Reachability.Proofs.Log.Shelf

set_option autoImplicit false

/-! # Replay

What is read from a shelf whose segments hold the lines of entries: the entries of the segments in
the order of their names, and those of the active file, of which the last may not have been written
to its end (`Frayed`). After a replay the active file holds whole lines again, and if it is stopped
the same entries are there. -/

namespace Reachability.Log

open Disk (Place)
open Disk.Program (Only Stops)
open Segment (bytesOf newline)

/-! ## Files with entries -/

/-- The entries of a file and the time of its last change. -/
structure Record where
  entries : List Entry
  modified : Int
  deriving DecidableEq

/-- The file that holds just the lines of the entries. -/
def Record.kept (r : Record) : Kept := ⟨bytesOf r.entries, r.modified⟩

/-- Segments with their records. -/
abbrev Closed := List (SegmentFile × Record)

namespace Closed

/-- The segments as files. -/
def shelve (closed : Closed) : List (SegmentFile × Kept) := closed.map fun e => (e.1, e.2.kept)

/-- The entries of all segments. -/
def entries (closed : Closed) : List Entry := closed.flatMap fun e => e.2.entries

/-- The segments in the order in which they are read. -/
def inOrder (closed : Closed) : Closed := closed.mergeSort fun a b => a.1.le b.1

/-- The segments are in the order of their names. -/
def Ascending (closed : Closed) : Prop := closed.Pairwise fun a b => a.1.le b.1 = true

theorem inOrder_of_ascending {closed : Closed} (h : closed.Ascending) : closed.inOrder = closed :=
  List.mergeSort_of_pairwise h

theorem inOrder_perm (closed : Closed) : closed.inOrder.Perm closed := List.mergeSort_perm ..

theorem map_fst_shelve (closed : Closed) : closed.shelve.map Prod.fst = closed.map Prod.fst := by
  rw [shelve, List.map_map]
  rfl

theorem entries_append (a b : Closed) : entries (a ++ b) = a.entries ++ b.entries :=
  List.flatMap_append

theorem mem_entries {closed : Closed} {e : SegmentFile × Record} (he : e ∈ closed) {x : Entry}
    (hx : x ∈ e.2.entries) : x ∈ closed.entries := List.mem_flatMap.2 ⟨e, he, hx⟩

end Closed

/-! ## A line that was not written to its end -/

/-- What a file may hold if the writing of a line has been stopped, and the entries that count. -/
inductive Frayed : List Entry → List UInt8 → Prop where
  | whole (es : List Entry) : Frayed es (bytesOf es)
  | torn (es : List Entry) {e : Entry} {p q : List UInt8} (hp : p ≠ []) (hq : q ≠ [])
      (h : p ++ q = e.bytes) : Frayed es (bytesOf es ++ p)
  | unended (es : List Entry) (e : Entry) : Frayed (es ++ [e]) (bytesOf es ++ e.bytes)

/-- The entry of a line of which these bytes are there, if they are all but for the newline. -/
def reached (e : Entry) (bs : List UInt8) : List Entry :=
  if e.bytes.length ≤ bs.length then [e] else []

theorem reached_nil (e : Entry) : reached e [] = [] := by
  obtain ⟨middle, hm⟩ := e.bytes_eq
  rw [reached, if_neg (by simp [hm])]

/-- A line may be cut anywhere. Its entry counts once all its bytes are there. -/
theorem frayed_take (es : List Entry) (e : Entry) (k : Nat) :
    Frayed (es ++ reached e ((Segment.line e).take k)) (bytesOf es ++ (Segment.line e).take k) := by
  have hline : (Segment.line e).length = e.bytes.length + 1 := by simp [Segment.line]
  rw [reached, List.length_take, hline]
  -- The cut is behind the newline, right before it, or within the bytes of the entry.
  by_cases hlong : e.bytes.length < k
  · have htake : (Segment.line e).take k = Segment.line e := List.take_of_length_le (by omega)
    rw [if_pos (by omega), htake, ← Segment.bytesOf_singleton, ← Segment.bytesOf_append]
    exact .whole (es ++ [e])
  have htake : (Segment.line e).take k = e.bytes.take k := by
    rw [Segment.line, List.take_append_of_le_length (by omega)]
  rw [htake]
  by_cases hwhole : e.bytes.length = k
  · rw [if_pos (by omega), ← hwhole, List.take_length]
    exact .unended es e
  rw [if_neg (by omega), List.append_nil]
  by_cases hk : k = 0
  · subst hk
    rw [List.take_zero, List.append_nil]
    exact .whole es
  · refine .torn es (q := e.bytes.drop k) ?_ ?_ (List.take_append_drop k e.bytes)
    · intro hnil
      have := congrArg List.length hnil
      rw [List.length_take, List.length_nil] at this
      omega
    · intro hnil
      have := congrArg List.length hnil
      rw [List.length_drop, List.length_nil] at this
      omega

/-- What a file holds after it has been cut and ended. -/
def Segment.Content.mended (c : Segment.Content) (bs : List UInt8) : List UInt8 :=
  bs.take c.cleanLength ++ if 0 < c.cleanLength ∧ !c.endsWithNewline then [newline] else []

/-- The entries that count are read, and mending leaves just their lines. -/
theorem Frayed.parse {es : List Entry} {bs : List UInt8} (h : Frayed es bs)
    (hv : ∀ e ∈ es, e.Valid) :
    ∃ c, Segment.parse bs = .ok c ∧ c.entries = es ∧ c.mended bs = bytesOf es ∧
      Frayed es (bs.take c.cleanLength) ∧ (needsMending c bs.length = false → bs = bytesOf es) := by
  cases h with
  | whole =>
      refine ⟨_, Segment.parse_bytesOf hv, rfl, ?_, ?_, fun _ => rfl⟩
      · simp [Segment.Content.mended]
      · rw [List.take_length]
        exact .whole es
  | torn _ hp hq hpq =>
      -- What is left of a torn line is cut off by the length that is clean.
      refine ⟨_, Segment.parse_torn hv hp hq hpq, rfl, ?_, ?_, fun hno => ?_⟩
      · simp [Segment.Content.mended]
      · rw [List.take_left]
        exact .whole es
      · simp [needsMending] at hno
  | unended es e =>
      have hes : ∀ e' ∈ es, e'.Valid := fun e' he' => hv e' (List.mem_append_left _ he')
      refine ⟨_, Segment.parse_unended hes (hv e (by simp)), rfl, ?_, ?_, fun hno => ?_⟩
      · have hpos : 0 < (bytesOf es ++ e.bytes).length := by
          obtain ⟨middle, hm⟩ := e.bytes_eq
          rw [List.length_append, hm, List.length_append, List.length_singleton]
          omega
        rw [Segment.Content.mended, if_pos ⟨hpos, rfl⟩, List.take_length,
          Segment.bytesOf_append, Segment.bytesOf_singleton, Segment.line, List.append_assoc]
      · rw [List.take_length]
        exact .unended es e
      · simp [needsMending] at hno

/-! ## Reading -/

section Replay

variable {log : Log} {d₀ d : Disk} {here : Place} {base : String} {s : Shelf} {k : Kept}
  {closed : Closed} {now : Int} (hb : log.Begins d₀ here base) (h : log.Holds d₀ here base d s)
  (hs : s.segments = closed.shelve)

include h hs

theorem Holds.run_readSegments {l : Closed} (hl : ∀ e ∈ l, e ∈ closed)
    (hv : ∀ x ∈ closed.entries, x.Valid) :
    (readSegments (l.map fun e => log.pathOf e.1)).run.run now d = (.ok l.entries, d) := by
  induction l with
  | nil => rfl
  | cons e l ih =>
      have he : e ∈ closed := hl e (List.mem_cons_self ..)
      have hmem : (e.1, e.2.kept) ∈ s.segments := by
        rw [hs]
        exact List.mem_map_of_mem he
      have hread : Disk.perform now d (.read (log.pathOf e.1)) = (.ok e.2.kept.content, d) :=
        congrArg (·, d) ((h.reaches_segment hmem).read_file (h.segment _ hmem))
      have hparse : (parseFile (log.pathOf e.1) e.2.kept.content).run.run now d
          = (.ok ⟨e.2.entries, false, (bytesOf e.2.entries).length, true⟩, d) := by
        rw [parseFile, Record.kept, Segment.parse_bytesOf fun x hx => hv x (Closed.mem_entries he hx)]
        rfl
      rw [List.map_cons, readSegments, Action.run_bind_ok (Action.run_access_ok hread),
        Action.run_bind_ok hparse,
        Action.run_bind_ok (ih fun e' he' => hl e' (List.mem_cons_of_mem _ he'))]
      rfl

include hb

theorem Holds.run_segments_closed : log.segments.run.run now d
    = (.ok (closed.inOrder.map fun e => log.pathOf e.1), d) := by
  have horder : (s.segments.map Prod.fst).mergeSort SegmentFile.le
      = closed.inOrder.map Prod.fst := by
    rw [hs, Closed.map_fst_shelve, Closed.inOrder]
    exact (List.map_mergeSort (f := Prod.fst) fun a _ b _ => rfl).symm
  rw [h.run_segments hb, horder, List.map_map]
  rfl

/-- Without an active file the segments are all there is. -/
theorem Holds.run_replay_none (hk : s.active = none) (hv : ∀ x ∈ closed.entries, x.Valid) :
    log.replay.run.run now d = (.ok ⟨closed.inOrder.entries, closed.length, false⟩, d) := by
  have hlength : (closed.inOrder.map fun e => log.pathOf e.1).length = closed.length := by
    rw [List.length_map, closed.inOrder_perm.length_eq]
  rw [replay, Action.run_bind_ok (h.run_segments_closed hb hs), Action.run_bind_ok
    (h.run_readSegments hs (fun e he => closed.inOrder_perm.mem_iff.1 he) hv),
    Action.run_bind_ok (Action.run_accessIfThere_notFound (h.perform_read_none hb now hk)), hlength]
  rfl

omit hs in
/-- The active file is cut after its last entry, and that line is ended. -/
theorem Holds.run_mend (now : Int) (hk : s.active = some k) (c : Segment.Content) :
    ∃ d', (mend log.path c).run.run now d = (.ok (), d') ∧
      log.Holds d₀ here base d' { s with active := some ⟨c.mended k.content, now⟩ } := by
  obtain ⟨d₁, htruncate, h₁⟩ := h.truncate hb now hk c.cleanLength
  have hcut : (Action.access (.truncate log.path c.cleanLength) : Action Unit).run.run now d
      = (.ok (), d₁) := Action.run_access_ok (congrArg (Disk.changed d) htruncate)
  by_cases hend : 0 < c.cleanLength ∧ !c.endsWithNewline
  · obtain ⟨d₂, happend, h₂⟩ := h₁.append hb now rfl [newline]
    have hadd : (Action.access (.append log.path [newline]) : Action Unit).run.run now d₁
        = (.ok (), d₂) := Action.run_access_ok (congrArg (Disk.changed d₁) happend)
    have hflush : (Action.access (.flush log.path) : Action Unit).run.run now d₂ = (.ok (), d₂) :=
      Action.run_access_ok rfl
    refine ⟨d₂, ?_, ?_⟩
    · rw [mend, Action.run_bind_ok hcut]
      simp only [if_pos hend]
      rw [Action.run_bind_ok hadd, Action.run_bind_ok hflush]
      exact Action.run_access_ok (h₂.perform_sync hb now rfl)
    · rw [Segment.Content.mended, if_pos hend]
      exact h₂
  · refine ⟨d₁, ?_, ?_⟩
    · rw [mend, Action.run_bind_ok hcut]
      simp only [if_neg hend]
      exact Action.run_access_ok (h₁.perform_sync hb now rfl)
    · rw [Segment.Content.mended, if_neg hend, List.append_nil]
      exact h₁

/-- If the active file can be read, a replay does what its end needs and nothing else. -/
theorem Holds.run_replay_parsed {c : Segment.Content} {d' : Disk} (hk : s.active = some k)
    (hparse : Segment.parse k.content = .ok c) (hv : ∀ x ∈ closed.entries, x.Valid)
    (hend : (if needsMending c k.content.length then mend log.path c else pure () :
      Action Unit).run.run now d = (.ok (), d')) :
    log.replay.run.run now d
      = (.ok ⟨closed.inOrder.entries ++ c.entries, closed.length + 1, c.torn⟩, d') := by
  have hfile : (parseFile log.path k.content).run.run now d = (.ok c, d) := by
    rw [parseFile, hparse]
    rfl
  have hlength : (closed.inOrder.map fun e => log.pathOf e.1).length = closed.length := by
    rw [List.length_map, closed.inOrder_perm.length_eq]
  rw [replay, Action.run_bind_ok (h.run_segments_closed hb hs), Action.run_bind_ok
    (h.run_readSegments hs (fun e he => closed.inOrder_perm.mem_iff.1 he) hv),
    Action.run_bind_ok (Action.run_accessIfThere_ok (h.perform_read hb now hk))]
  simp only []
  rw [Action.run_bind_ok hfile]
  by_cases hneeds : needsMending c k.content.length = true
  · simp only [if_pos hneeds] at hend ⊢
    rw [Action.run_bind_ok hend, hlength]
    rfl
  · simp only [if_neg hneeds] at hend ⊢
    rw [hlength]
    cases hend
    rfl

/-- The entries that count are read, and then the active file holds just their lines. -/
theorem Holds.run_replay_frayed {es : List Entry} (hk : s.active = some k)
    (hf : Frayed es k.content) (hv : ∀ x ∈ closed.entries, x.Valid) (hes : ∀ x ∈ es, x.Valid) :
    ∃ r d' t, log.replay.run.run now d = (.ok r, d') ∧
      r.entries = closed.inOrder.entries ++ es ∧
      log.Holds d₀ here base d' { s with active := some ⟨bytesOf es, t⟩ } := by
  obtain ⟨c, hparse, rfl, hmended, -, hclean⟩ := hf.parse hes
  by_cases hneeds : needsMending c k.content.length = true
  · obtain ⟨d', hmend, hd'⟩ := h.run_mend hb now hk c
    refine ⟨_, d', now, h.run_replay_parsed hb hs hk hparse hv ?_, rfl, ?_⟩
    · rw [if_pos hneeds]
      exact hmend
    · rw [← hmended]
      exact hd'
  · refine ⟨_, d, k.modified, h.run_replay_parsed hb hs hk hparse hv ?_, rfl, ?_⟩
    · rw [if_neg hneeds]
      rfl
    -- A file that needs nothing holds whole lines.
    · rw [← hclean (by simpa using hneeds), ← hk]
      exact h

/-- A file of whole lines is read and left as it is. -/
theorem Holds.run_replay_whole {r : Record} (hk : s.active = some r.kept)
    (hv : ∀ x ∈ closed.entries, x.Valid) (hes : ∀ x ∈ r.entries, x.Valid) :
    log.replay.run.run now d
      = (.ok ⟨closed.inOrder.entries ++ r.entries, closed.length + 1, false⟩, d) := by
  have hparse : Segment.parse r.kept.content
      = .ok ⟨r.entries, false, (bytesOf r.entries).length, true⟩ := Segment.parse_bytesOf hes
  refine h.run_replay_parsed hb hs hk hparse hv ?_
  rw [if_neg (by simp [needsMending, Record.kept])]
  rfl

end Replay

/-! ## A replay that is stopped -/

theorem only_segments (log : Log) : log.segments.run.Only Disk.Request.IsReading := by
  refine Action.only_bind (Action.only_accessIfThere trivial) fun names => ?_
  cases names <;> trivial

theorem only_parseFile {P : Disk.Request → Prop} (path : List Char) (bs : List UInt8) :
    (parseFile path bs).run.Only P := by
  unfold parseFile
  split <;> trivial

theorem only_readSegments (paths : List (List Char)) :
    (readSegments paths).run.Only Disk.Request.IsReading := by
  induction paths with
  | nil => trivial
  | cons path paths ih =>
      refine Action.only_bind (Action.only_access trivial) fun bs => ?_
      refine Action.only_bind (only_parseFile path bs) fun content => ?_
      exact Action.only_bind ih fun entries => trivial

/-- Without an active file a replay only reads. -/
theorem Holds.stops_replay_none {log : Log} {d₀ d d' : Disk} {here : Place} {base : String}
    {s : Shelf} {now : Int} {bs : List UInt8} (hb : log.Begins d₀ here base)
    (h : log.Holds d₀ here base d s) (hk : s.active = none)
    (hstop : Stops now log.replay.run d bs d') : d' = d := by
  rw [replay] at hstop
  rcases Action.stops_reading_bind hstop (only_segments log) with ⟨-, hd⟩ | ⟨paths, -, hstop⟩
  · exact hd
  rcases Action.stops_reading_bind hstop (only_readSegments paths) with ⟨-, hd⟩ | ⟨old, -, hstop⟩
  · exact hd
  rcases Action.stops_reading_bind hstop (Action.only_accessIfThere trivial)
    with ⟨-, hd⟩ | ⟨answer, hrun, hstop⟩
  · exact hd
  rw [Action.run_accessIfThere_notFound (h.perform_read_none hb now hk)] at hrun
  obtain rfl : none = answer := Except.ok.inj (Prod.mk.inj hrun).1
  exact (Disk.Program.stops_done hstop).2

section Stops

variable {log : Log} {d₀ d d' : Disk} {here : Place} {base : String} {s : Shelf} {k : Kept}
  {now : Int} {bs : List UInt8} (hb : log.Begins d₀ here base) (h : log.Holds d₀ here base d s)
  (hk : s.active = some k)

include hb h hk

/-- When mending is stopped, the active file is as it was, or cut, or mended. -/
theorem Holds.stops_mend {c : Segment.Content} (hstop : Stops now (mend log.path c).run d bs d') :
    ∃ k', log.Holds d₀ here base d' { s with active := some k' } ∧
      (k'.content = k.content ∨ k'.content = k.content.take c.cleanLength ∨
        k'.content = c.mended k.content) := by
  have hsame : log.Holds d₀ here base d { s with active := some k } := hk ▸ h
  obtain ⟨d₁, htruncate, h₁⟩ := h.truncate hb now hk c.cleanLength
  have hcut : Disk.perform now d (.truncate log.path c.cleanLength) = (.ok (), d₁) :=
    congrArg (Disk.changed d) htruncate
  rw [mend] at hstop
  rcases Action.stops_access_bind hcut hstop with hpart | ⟨bs', -, hstop⟩
  · cases hpart
    exact ⟨k, hsame, .inl rfl⟩
  by_cases hend : 0 < c.cleanLength ∧ !c.endsWithNewline
  · obtain ⟨d₂, happend, h₂⟩ := h₁.append hb now rfl [newline]
    have hadd : Disk.perform now d₁ (.append log.path [newline]) = (.ok (), d₂) :=
      congrArg (Disk.changed d₁) happend
    have hmended : log.Holds d₀ here base d₂
        { s with active := some ⟨c.mended k.content, now⟩ } := by
      rw [Segment.Content.mended, if_pos hend]
      exact h₂
    simp only [if_pos hend] at hstop
    rcases Action.stops_access_bind hadd hstop with hpart | ⟨bs'', -, hstop⟩
    · cases hpart with
      | nothing => exact ⟨_, h₁, .inr (.inl rfl)⟩
      | added n hpart =>
          -- The newline is one byte, so it has been written or not.
          cases n with
          | zero =>
              obtain ⟨d₃, hnone, h₃⟩ := h₁.append hb now rfl []
              rw [List.take_zero, hnone] at hpart
              cases hpart
              exact ⟨_, h₃, .inr (.inl (List.append_nil _))⟩
          | succ n =>
              rw [List.take_of_length_le (by simp), happend] at hpart
              cases hpart
              exact ⟨_, hmended, .inr (.inr rfl)⟩
    have hflush : Disk.perform now d₂ (.flush log.path) = (.ok (), d₂) := rfl
    rcases Action.stops_access_bind hflush hstop with hpart | ⟨bs₃, -, hstop⟩
    · rw [(hpart.of_isReading trivial).2]
      exact ⟨_, hmended, .inr (.inr rfl)⟩
    · rw [(Action.stops_reading hstop trivial).2]
      exact ⟨_, hmended, .inr (.inr rfl)⟩
  · simp only [if_neg hend] at hstop
    rw [(Action.stops_reading hstop trivial).2]
    exact ⟨_, h₁, .inr (.inl rfl)⟩

/-- When a replay is stopped, the entries that count are still the same. -/
theorem Holds.stops_replay {es : List Entry} (hf : Frayed es k.content)
    (hes : ∀ x ∈ es, x.Valid) (hstop : Stops now log.replay.run d bs d') :
    ∃ k', log.Holds d₀ here base d' { s with active := some k' } ∧ Frayed es k'.content := by
  obtain ⟨c, hparse, -, hmended, hcut, -⟩ := hf.parse hes
  have hsame : ∃ k', log.Holds d₀ here base d { s with active := some k' } ∧
      Frayed es k'.content := ⟨k, hk ▸ h, hf⟩
  rw [replay] at hstop
  rcases Action.stops_reading_bind hstop (only_segments log) with ⟨-, hd⟩ | ⟨paths, -, hstop⟩
  · exact hd ▸ hsame
  rcases Action.stops_reading_bind hstop (only_readSegments paths) with ⟨-, hd⟩ | ⟨old, -, hstop⟩
  · exact hd ▸ hsame
  rcases Action.stops_reading_bind hstop (Action.only_accessIfThere trivial)
    with ⟨-, hd⟩ | ⟨answer, hrun, hstop⟩
  · exact hd ▸ hsame
  rw [Action.run_accessIfThere_ok (h.perform_read hb now hk)] at hrun
  obtain rfl : some k.content = answer := Except.ok.inj (Prod.mk.inj hrun).1
  rcases Action.stops_reading_bind hstop (only_parseFile log.path k.content)
    with ⟨-, hd⟩ | ⟨c', hrun, hstop⟩
  · exact hd ▸ hsame
  rw [parseFile, hparse] at hrun
  obtain rfl : c = c' := Except.ok.inj (Prod.mk.inj hrun).1
  by_cases hneeds : needsMending c k.content.length = true
  -- Whatever has been done of the mending leaves a file with the same entries.
  · simp only [if_pos hneeds] at hstop
    have hmend := Action.stops_bind_done hstop fun _ => ⟨_, rfl⟩
    obtain ⟨k', hk', hcontent | hcontent | hcontent⟩ := h.stops_mend hb hk hmend
    · exact ⟨k', hk', hcontent ▸ hf⟩
    · exact ⟨k', hk', hcontent ▸ hcut⟩
    · refine ⟨k', hk', ?_⟩
      rw [hcontent, hmended]
      exact .whole es
  · simp only [if_neg hneeds] at hstop
    rw [(Disk.Program.stops_done hstop).2]
    exact hsame

end Stops

end Reachability.Log
