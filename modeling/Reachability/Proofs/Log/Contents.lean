import Reachability.Proofs.Log.Attempt
import Reachability.Proofs.Log.Corruption
import Reachability.Proofs.Log.Order

set_option autoImplicit false

/-! # What is read from a shelf

A replay reads the segments of a shelf in the order of their names and then the active file
(`Holds.reads_iff`), whatever bytes are in them. So it reads what an attempt at an append has left,
and nothing is missing but what was in the lost segments (`Shifts.entries_perm`). As long as no
segment has been lost, the segments are read in the order in which they were set aside (`Lined`). -/

namespace Reachability.Log

open Disk (Place)
open Disk.Program (Fares)
open Segment (Sound entriesOf lines)

/-- A replay of the log on a disk succeeds, and these are the entries that it reads. -/
def Reads (log : Log) (d : Disk) (es : List Entry) : Prop :=
  ∀ now, ∃ r d', log.replay.run.run now d = (.ok r, d') ∧ r.entries = es

/-! ## The files of a shelf -/

/-- All files can be read. -/
structure Shelf.IsSound (s : Shelf) : Prop where
  segments : ∀ e ∈ s.segments, Sound (lines e.2.content)
  active : Sound (lines s.content)

/-- The entries on the lines of segments. -/
def entriesOfAll (l : List (SegmentFile × Kept)) : List Entry :=
  l.flatMap fun e => entriesOf e.2.content

/-- The entries on the lines of all files, in the order in which they are read. -/
def Shelf.entries (s : Shelf) : List Entry := entriesOfAll s.inOrder ++ entriesOf s.content

theorem Shelf.entries_perm (s : Shelf) :
    s.entries.Perm (entriesOfAll s.segments ++ entriesOf s.content) :=
  (s.inOrder_perm.flatMap_right _).append_right _

section Holds

variable {log : Log} {d₀ d : Disk} {here : Place} {base : String} {s : Shelf}
  (hb : log.Begins d₀ here base) (h : log.Holds d₀ here base d s)

include hb h

theorem Holds.finds :
    log.Finds d here base s.active (s.inOrder.map fun e => (e.1, e.2.content)) where
  goal := Disk.goal_sameOutside hb.vacant h.outside hb.goal
  file := hb.file
  fits := hb.fits
  active := by
    rw [(hb.vacant.ordinary hb.isName).node?_eq]
    exact h.active
  names x hx := by
    rcases List.mem_append.1 ((h.namesIn_perm hb).mem_iff.1 hx) with hx | hx
    · unfold Shelf.activeNames at hx
      split at hx
      · rw [List.mem_singleton.1 hx]
        exact hb.isName
      · cases hx
    · obtain ⟨e, he, rfl⟩ := List.mem_map.1 hx
      exact hb.isName_of_proper (h.proper e he)
  listed := by
    rw [h.ofNames_namesIn hb, ← s.map_fst_inOrder, List.map_map]
    rfl
  readable e he := by
    obtain ⟨x, hx, rfl⟩ := List.mem_map.1 he
    have hx := s.inOrder_perm.mem_iff.1 hx
    exact (h.reaches_segment hx).read_file (h.segment x hx)

theorem Holds.reads_iff {es : List Entry} : log.Reads d es ↔ s.IsSound ∧ es = s.entries := by
  have hfinds := h.finds hb
  have hsound : (∀ f ∈ log.files s.active (s.inOrder.map fun e => (e.1, e.2.content)),
      Sound (lines f.2)) ↔ s.IsSound := by
    rw [forall_mem_files (P := fun bs => Sound (lines bs)), List.forall_mem_map]
    constructor
    · rintro ⟨hsegments, hactive⟩
      refine ⟨fun e he => hsegments e (s.inOrder_perm.mem_iff.2 he), ?_⟩
      unfold Shelf.content
      cases hk : s.active with
      | none => exact .nil
      | some k => exact hactive k hk
    · rintro ⟨hsegments, hactive⟩
      refine ⟨fun e he => hsegments e (s.inOrder_perm.mem_iff.1 he), fun k hk => ?_⟩
      rwa [Shelf.content, hk] at hactive
  have hentries : (log.files s.active (s.inOrder.map fun e => (e.1, e.2.content))).flatMap
      (fun f => entriesOf f.2) = s.entries := by
    rw [files, segmentFiles, List.flatMap_append, List.flatMap_map, List.flatMap_map, Shelf.entries,
      entriesOfAll, Shelf.content]
    cases s.active <;> simp [entriesOf, lines]
  constructor
  · intro hreads
    obtain ⟨r, d', hrun, rfl⟩ := hreads 0
    obtain ⟨-, hes, -⟩ := replay_of_any_files hfinds 0
    exact ⟨hsound.1 (hfinds.sound_of_run_replay hrun), (hes r d' hrun).trans hentries⟩
  · rintro ⟨hs, rfl⟩ now
    obtain ⟨r, d', hrun, hes⟩ := hfinds.run_replay_of_sound (hsound.2 hs) now
    exact ⟨r, d', hrun, hes.trans hentries⟩

end Holds

/-! ## What becomes of the entries -/

section Steps

variable {log : Log} {moment : Moment} {s s' : Shelf} {lost : List (SegmentFile × Kept)}

theorem Sheds.isSound_iff {now : Int} (h : log.Sheds now s lost s') :
    s.IsSound ↔ s'.IsSound ∧ ∀ e ∈ lost, Sound (lines e.2.content) := by
  have hcontent : s'.content = s.content := by rw [Shelf.content, h.active]; rfl
  have hall : (∀ e ∈ s.segments, Sound (lines e.2.content)) ↔
      (∀ e ∈ s'.segments, Sound (lines e.2.content)) ∧ ∀ e ∈ lost, Sound (lines e.2.content) := by
    rw [← List.forall_mem_append]
    exact forall_congr' fun e => by rw [h.perm.mem_iff]
  constructor
  · rintro ⟨hsegments, hactive⟩
    obtain ⟨hkept, hlost⟩ := hall.1 hsegments
    exact ⟨⟨hkept, hcontent ▸ hactive⟩, hlost⟩
  · rintro ⟨⟨hkept, hactive⟩, hlost⟩
    exact ⟨hall.2 ⟨hkept, hlost⟩, hcontent ▸ hactive⟩

theorem Sheds.entries_perm {now : Int} (h : log.Sheds now s lost s') :
    s.entries.Perm (s'.entries ++ entriesOfAll lost) := by
  have hcontent : s'.content = s.content := by rw [Shelf.content, h.active]; rfl
  calc s.entries.Perm _ := s.entries_perm
    List.Perm _ (entriesOfAll (s'.segments ++ lost) ++ entriesOf s'.content) := by
      rw [hcontent]
      exact (h.perm.flatMap_right _).append_right _
    List.Perm _ (entriesOfAll s'.segments ++ entriesOf s'.content ++ entriesOfAll lost) := by
      rw [entriesOfAll, List.flatMap_append, List.append_assoc, List.append_assoc]
      exact List.perm_append_comm.append_left _
    List.Perm _ (s'.entries ++ entriesOfAll lost) := s'.entries_perm.symm.append_right _

/-- Setting the active file aside changes the place of its bytes only. -/
theorem Shelf.isSound_aside {k : Kept} (hk : s.active = some k) (t : SegmentFile) :
    (⟨none, s.segments ++ [(t, k)]⟩ : Shelf).IsSound ↔ s.IsSound := by
  have hcontent : s.content = k.content := by rw [content, hk]; rfl
  constructor
  · rintro ⟨hsegments, -⟩
    obtain ⟨hold, hnew⟩ := List.forall_mem_append.1 hsegments
    exact ⟨hold, hcontent ▸ hnew _ (List.mem_singleton_self _)⟩
  · rintro ⟨hsegments, hactive⟩
    refine ⟨List.forall_mem_append.2 ⟨hsegments, fun e he => ?_⟩, .nil⟩
    rw [List.mem_singleton.1 he]
    exact hcontent ▸ hactive

theorem Shelf.entriesOfAll_aside {k : Kept} (hk : s.active = some k) (t : SegmentFile) :
    entriesOfAll (s.segments ++ [(t, k)]) = entriesOfAll s.segments ++ entriesOf s.content := by
  have hcontent : s.content = k.content := by rw [content, hk]; rfl
  rw [hcontent, entriesOfAll, List.flatMap_append, List.flatMap_singleton, entriesOfAll]

/-- A shelf without an active file has the entries of its segments only. -/
theorem Shelf.entries_of_none (hk : s.active = none) : s.entries = entriesOfAll s.inOrder := by
  rw [entries, content, hk]
  exact List.append_nil _

theorem Shifts.isSound_iff (h : log.Shifts moment s lost s') :
    s.IsSound ↔ s'.IsSound ∧ ∀ e ∈ lost, Sound (lines e.2.content) := by
  cases h with
  | still => simp
  | aside hk _ _ hs => exact (Shelf.isSound_aside hk _).symm.trans hs.isSound_iff

/-- No entry is missing but those of the lost segments. -/
theorem Shifts.entries_perm (h : log.Shifts moment s lost s') :
    s.entries.Perm (s'.entries ++ entriesOfAll lost) := by
  cases h with
  | still => exact .of_eq (List.append_nil _).symm
  | aside hk _ _ hs =>
      refine List.Perm.trans ?_ hs.entries_perm
      refine s.entries_perm.trans (.trans ?_ (Shelf.entries_perm _).symm)
      rw [Shelf.entriesOfAll_aside hk]
      exact .of_eq (List.append_nil _).symm

/-- A lost segment had been kept long enough, and its file was on the shelf before. -/
theorem Shifts.of_mem_lost (h : log.Shifts moment s lost s')
    (hproper : ∀ e ∈ s.segments, log.Proper e.1) (hplain : moment.today.Plain)
    {e : SegmentFile × Kept} (he : e ∈ lost) :
    log.Proper e.1 ∧ log.keeps moment.seconds e.2 = false ∧
      (e ∈ s.segments ∨ s.active = some e.2) := by
  cases h with
  | still => cases he
  | aside hk hn _ hs =>
      have hmem := hs.perm.mem_iff.2 (List.mem_append_right _ he)
      rcases List.mem_append.1 hmem with hmem | hmem
      · exact ⟨hproper e hmem, hs.expired e he, .inl hmem⟩
      · have hkeeps := hs.expired e he
        obtain rfl := List.mem_singleton.1 hmem
        exact ⟨proper_segment log hplain hn, hkeeps, .inr hk⟩

theorem Shelf.Grows.unchanged (h : s.Grows [] s') :
    (s'.IsSound ↔ s.IsSound) ∧ s'.entries = s.entries := by
  cases h with
  | still => exact ⟨.rfl, rfl⟩
  | added _ t =>
      have hcontent : Shelf.content { s with active := some ⟨s.content ++ [], t⟩ } = s.content :=
        List.append_nil _
      rw [Shelf.entries, hcontent]
      refine ⟨⟨fun hs => ⟨hs.segments, ?_⟩, fun hs => ⟨hs.segments, ?_⟩⟩, rfl⟩
      · rw [← hcontent]
        exact hs.active
      · rw [hcontent]
        exact hs.active

theorem Shelf.Tidied.unchanged (h : s.Tidied s') :
    (s'.IsSound ↔ s.IsSound) ∧ s'.entries = s.entries := by
  cases h with
  | still => exact ⟨.rfl, rfl⟩
  | @mended k hk hs bs t hbs he =>
      have hcontent : s.content = k.content := by rw [content, hk]; rfl
      rw [Shelf.entries, Shelf.entries, hcontent]
      refine ⟨⟨fun h => ⟨h.segments, ?_⟩, fun h => ⟨h.segments, hbs⟩⟩, ?_⟩
      · rw [hcontent]
        exact hs
      · exact congrArg (_ ++ ·) he

end Steps

/-! ## The order of the segments -/

/-- The segments stand in the order of their names, none is from the future, and no number of a day
    is left out. -/
structure Shelf.Lined (log : Log) (today : CivilDate) (s : Shelf) : Prop where
  ascending : s.segments.Pairwise fun a b => a.1.le b.1
  past : ∀ e ∈ s.segments, e.1.date.upTo today
  filled : ∀ e ∈ s.segments, ∀ i < e.1.number,
    log.family.segment e.1.date i ∈ s.segments.map Prod.fst

section Lined

variable {log : Log} {today : CivilDate} {moment : Moment} {s s' : Shelf}

theorem Shelf.lined_empty (log : Log) (today : CivilDate) : empty.Lined log today where
  ascending := .nil
  past := nofun
  filled := nofun

theorem Shelf.Lined.mono (h : s.Lined log today) {today' : CivilDate} (hd : today.upTo today') :
    s.Lined log today' where
  ascending := h.ascending
  past e he := CivilDate.upTo_trans (h.past e he) hd
  filled := h.filled

theorem Shelf.Lined.of_segments (h : s.Lined log today) (hs : s'.segments = s.segments) :
    s'.Lined log today := by
  obtain ⟨active, segments⟩ := s'
  subst hs
  exact ⟨h.ascending, h.past, h.filled⟩

theorem Shelf.Lined.inOrder_eq (h : s.Lined log today) : s.inOrder = s.segments :=
  List.mergeSort_of_pairwise h.ascending

/-- The first free number of a day is above those of the segments of the day. -/
theorem Shelf.Lined.number_lt (h : s.Lined log today) {n : Nat}
    (hfree : log.FirstFree (s.segments.map Prod.fst) today n) {e : SegmentFile × Kept}
    (he : e ∈ s.segments) (hproper : log.Proper e.1) (hdate : e.1.date = today) :
    e.1.number < n := by
  refine Nat.lt_of_not_le fun hle => hfree.free ?_
  rcases Nat.eq_or_lt_of_le hle with heq | hlt
  · rw [heq, ← hdate, ← hproper.segment]
    exact List.mem_map_of_mem he
  · have hmem := h.filled e he n hlt
    rwa [hdate] at hmem

/-- If no segment is lost, the one that is set aside comes last, and all entries are read as
    before. -/
theorem Shelf.Lined.shifts (h : s.Lined log moment.today)
    (hproper : ∀ e ∈ s.segments, log.Proper e.1) (hs : log.Shifts moment s [] s') :
    s'.Lined log moment.today ∧ s'.entries = s.entries := by
  cases hs with
  | still => exact ⟨h, rfl⟩
  | @aside k n _ _ hk hn hfree hs =>
      obtain rfl := hs.eq
      have hlined : (⟨none, s.segments ++ [(log.family.segment moment.today n, k)]⟩ : Shelf).Lined
          log moment.today := by
        refine ⟨List.pairwise_append.2 ⟨h.ascending, List.pairwise_singleton .., ?_⟩, ?_, ?_⟩
        · intro a ha b hb'
          obtain rfl := List.mem_singleton.1 hb'
          rw [SegmentFile.le_iff]
          rcases CivilDate.before_or_eq_of_upTo (h.past a ha) with hbefore | hdate
          · exact .inl hbefore
          · exact .inr ⟨hdate, .inl (h.number_lt hfree ha (hproper a ha) hdate)⟩
        · refine List.forall_mem_append.2 ⟨h.past, fun e he => ?_⟩
          obtain rfl := List.mem_singleton.1 he
          exact CivilDate.upTo_refl _
        · intro e he i hi
          rw [List.map_append]
          refine List.mem_append_left _ ?_
          rcases List.mem_append.1 he with he | he
          · exact h.filled e he i hi
          · obtain rfl := List.mem_singleton.1 he
            exact hfree.taken i hi
      refine ⟨hlined, ?_⟩
      rw [Shelf.entries_of_none rfl, hlined.inOrder_eq, Shelf.entriesOfAll_aside hk, Shelf.entries,
        h.inOrder_eq]

end Lined

/-! ## Calls that fail -/

/-- There is a file at a path. -/
structure HasFile (d : Disk) (path : List Char) (k : Kept) : Prop where
  stat : d.stat path = .ok ⟨k.content.length, k.modified⟩
  read : d.read path = .ok k.content

/-- From one disk to another a log has lost no entries but those of some segments that had been kept
    long enough. Their files were there before; one of them may have been the active file. -/
structure Spares (log : Log) (now : Int) (d : Disk) (pruned : List (SegmentFile × Kept))
    (d' : Disk) : Prop where
  proper : ∀ e ∈ pruned, log.Proper e.1
  present : ∀ e ∈ pruned, HasFile d (log.pathOf e.1) e.2 ∨ HasFile d log.path e.2
  expired : ∀ e ∈ pruned, log.retention ≠ .zero ∧ log.isExpired now e.2.modified = true
  kept : ∀ es, log.Reads d es → ∃ es', log.Reads d' es' ∧ es.Perm (es' ++ entriesOfAll pruned)
  legible : ∀ es', log.Reads d' es' → (∀ e ∈ pruned, Sound (lines e.2.content)) →
    ∃ es, log.Reads d es

/-- What a call that failed may have made of a log from which the files `before` had been removed:
    it has lost no entries but those of the segments that the call has removed. If no file has ever
    been removed, just the same entries are read, in their order. -/
structure Unharmed (log : Log) (now : Int) (before gone : List (List Char)) (d d' : Disk) :
    Prop where
  spares : ∃ pruned, gone = log.pathsOf pruned ∧ log.Spares now d pruned d'
  same : before = [] → gone = [] → ∀ es, log.Reads d' es ↔ log.Reads d es

theorem keeps_eq_false {log : Log} {now : Int} {k : Kept} (h : log.keeps now k = false) :
    log.retention ≠ .zero ∧ log.isExpired now k.modified = true := by
  simpa [keeps] using h

section Calls

variable {log : Log} {d₀ d d' : Disk} {here : Place} {base : String} {s s' : Shelf} {now : Int}
  {before gone : List (List Char)} (hb : log.Begins d₀ here base)
  (h : log.Holds d₀ here base d s)

include h

theorem Holds.hasFile_segment {e : SegmentFile × Kept} (he : e ∈ s.segments) :
    HasFile d (log.pathOf e.1) e.2 :=
  ⟨(h.reaches_segment he).stat_file (h.segment e he),
    (h.reaches_segment he).read_file (h.segment e he)⟩

include hb

theorem Holds.hasFile_active {k : Kept} (hk : s.active = some k) : HasFile d log.path k :=
  ⟨(h.reaches hb).stat_file (h.get?_active hk), (h.reaches hb).read_file (h.get?_active hk)⟩

/-- A shelf that is read as before is unharmed. -/
theorem Holds.unharmed_of_eq (h' : log.Holds d₀ here base d' s') (hsound : s'.IsSound ↔ s.IsSound)
    (hentries : s'.entries = s.entries) : log.Unharmed now before [] d d' := by
  have hreads : ∀ es, log.Reads d' es ↔ log.Reads d es := fun es => by
    rw [h'.reads_iff hb, h.reads_iff hb, hsound, hentries]
  refine ⟨⟨[], rfl, nofun, nofun, nofun, fun es hes => ⟨es, (hreads es).2 hes, ?_⟩,
    fun es hes _ => ⟨es, (hreads es).1 hes⟩⟩, fun _ _ => hreads⟩
  exact .of_eq (List.append_nil es).symm

theorem Holds.unharmed_replay {P : Disk → Disk.Request → Prop} {r : Except StoreError Replay}
    (hf : Fares P now log.replay.run d gone r d') : log.Unharmed now before gone d d' := by
  obtain ⟨rfl, s', htidied, h'⟩ := h.fares_replay hb hf
  obtain ⟨hsound, hentries⟩ := htidied.unchanged
  exact h.unharmed_of_eq hb h' hsound hentries

theorem Holds.unharmed_append {moment : Moment} (hplain : moment.today.Plain)
    (hlined : before = [] → s.Lined log moment.today) {e : Entry} {err : StoreError}
    (hf : Fares (log.MayFail false) moment.seconds (log.append moment e).run d gone (.error err)
      d') : log.Unharmed moment.seconds before gone d d' := by
  obtain ⟨lost, s₁, bs, s', rfl, hshifts, hgrows, h', hcut⟩ := h.fares_append hb hplain hf
  rw [hcut rfl err rfl] at hgrows
  obtain ⟨hsound, hentries⟩ := hgrows.unchanged
  have hlost := fun e he => hshifts.of_mem_lost h.proper hplain (e := e) he
  refine ⟨⟨lost, rfl, fun e he => (hlost e he).1, fun e he => ?_,
    fun e he => keeps_eq_false (hlost e he).2.1, fun es hes => ?_, fun es' hes' hsounds => ?_⟩,
    fun hbefore hgone es => ?_⟩
  · rcases (hlost e he).2.2 with hmem | hk
    · exact .inl (h.hasFile_segment hmem)
    · exact .inr (h.hasFile_active hb hk)
  · obtain ⟨hs, rfl⟩ := (h.reads_iff hb).1 hes
    refine ⟨s'.entries, (h'.reads_iff hb).2 ⟨hsound.2 (hshifts.isSound_iff.1 hs).1, rfl⟩, ?_⟩
    rw [hentries]
    exact hshifts.entries_perm
  · obtain ⟨hs', -⟩ := (h'.reads_iff hb).1 hes'
    exact ⟨s.entries, (h.reads_iff hb).2 ⟨hshifts.isSound_iff.2 ⟨hsound.1 hs', hsounds⟩, rfl⟩⟩
  · obtain rfl : lost = [] := List.map_eq_nil_iff.1 hgone
    obtain ⟨-, hsame⟩ := (hlined hbefore).shifts h.proper hshifts
    rw [h'.reads_iff hb, h.reads_iff hb, hsound, hentries, hsame, hshifts.isSound_iff]
    simp

/-! ## Calls one after the other -/

/-- The segments stay in order as long as no file is removed. -/
theorem Holds.after_append {cut : Bool} {moment : Moment} (hplain : moment.today.Plain)
    (hlined : before = [] → s.Lined log moment.today) {e : Entry} {r : Except StoreError Unit}
    (hf : Fares (log.MayFail cut) moment.seconds (log.append moment e).run d gone r d') :
    ∃ s', log.Holds d₀ here base d' s' ∧ (before ++ gone = [] → s'.Lined log moment.today) := by
  obtain ⟨lost, s₁, bs, s', rfl, hshifts, hgrows, h', -⟩ := h.fares_append hb hplain hf
  refine ⟨s', h', fun hnil => ?_⟩
  obtain ⟨hbefore, hgone⟩ := List.append_eq_nil_iff.1 hnil
  obtain rfl : lost = [] := List.map_eq_nil_iff.1 hgone
  obtain ⟨h₁, -⟩ := (hlined hbefore).shifts h.proper hshifts
  cases hgrows with
  | still => exact h₁
  | added bs t => exact h₁.of_segments rfl

theorem Holds.after_replay {P : Disk → Disk.Request → Prop} {today : CivilDate}
    (hlined : before = [] → s.Lined log today) {r : Except StoreError Replay}
    (hf : Fares P now log.replay.run d gone r d') :
    ∃ s', log.Holds d₀ here base d' s' ∧ (before ++ gone = [] → s'.Lined log today) := by
  obtain ⟨rfl, s', htidied, h'⟩ := h.fares_replay hb hf
  refine ⟨s', h', fun hnil => ?_⟩
  have hs := hlined (List.append_eq_nil_iff.1 hnil).1
  cases htidied with
  | still => exact hs
  | mended => exact hs.of_segments rfl

end Calls

end Reachability.Log
