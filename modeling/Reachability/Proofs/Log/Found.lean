import Reachability.Proofs.Log.Damage

set_option autoImplicit false

/-! # Logs that are found

A log may be opened on a directory that has been there before, with files of any bytes in it and
other files beside them (`Finds`). It can be read just if all of its files are sound. Writing to the
active file leaves the segments as they were, as they have other names, and no path leads through a
file. -/

namespace Reachability.Log

open Disk (Place Reaches)
open Disk.Path (IsName)
open Segment (Sound SpoiledAt IsTorn Clean entriesOf tidy)

/-- Names that are no names of segments do not matter. -/
theorem SegmentFile.ofNames_congr {f : SegmentFamily} {a b : List String} (ha : a.Nodup)
    (hb : b.Nodup) (h : ∀ x, f.key? x.toList ≠ none → (x ∈ a ↔ x ∈ b)) :
    ofNames f a = ofNames f b := by
  let read (x : String) : Option SegmentFile :=
    (f.key? x.toList).map fun key => ⟨key.1, key.2, x⟩
  let named (x : String) : Bool := (f.key? x.toList).isSome
  have hread : ∀ l, ofNames f l = ((l.filter named).filterMap read).mergeSort le := by
    intro l
    have hfilter : (l.filter named).filterMap read = l.filterMap read := by
      rw [List.filterMap_filter]
      refine List.filterMap_congr fun x _ => ?_
      cases hx : f.key? x.toList <;> simp [named, read, hx]
    rw [hfilter]
    rfl
  have hperm : (a.filter named).Perm (b.filter named) := by
    refine (List.perm_ext_iff_of_nodup (ha.filter _) (hb.filter _)).2 fun x => ?_
    rw [List.mem_filter, List.mem_filter]
    refine and_congr_left fun hx => h x fun hnone => ?_
    simp [named, hnone] at hx
  rw [hread a, hread b]
  exact mergeSort_eq_of_perm (hperm.filterMap _)

/-! ## What is found -/

/-- What a log finds on a disk: its active file, if there is one, and the segments that are listed
    in its directory, in order, each of which can be read. Any names may be in the directory, and
    the files may hold any bytes. -/
structure Finds (log : Log) (d : Disk) (here : Place) (base : String) (active : Option Kept)
    (old : List (SegmentFile × List UInt8)) : Prop where
  goal : d.goal log.path = .ok (.named here base)
  file : Disk.wantsDirectory log.path = false
  fits : ¬ Disk.longestName < base.utf8ByteSize
  active : d.node? (here ++ [base]) = active.map Kept.node
  names : ∀ x ∈ d.namesIn here, IsName x
  listed : SegmentFile.ofNames log.family (d.namesIn here) = old.map Prod.fst
  readable : ∀ e ∈ old, d.read (log.pathOf e.1) = .ok e.2

section Finds

variable {log : Log} {d : Disk} {here : Place} {base : String} {active : Option Kept}
  {old : List (SegmentFile × List UInt8)} (h : log.Finds d here base active old)

include h

theorem Finds.ordinary : Disk.Ordinary (here ++ [base]) := by
  have hactive := h.active
  cases active with
  | none => exact Disk.ordinary_of_node?_eq_none hactive
  | some k => exact Disk.ordinary_of_file hactive

theorem Finds.reaches : Reaches d log.path (here ++ [base]) :=
  Disk.reaches_of_goal h.goal h.file h.fits h.ordinary

theorem Finds.get?_active : d.nodes.get? (here ++ [base]) = active.map Kept.node := by
  rw [← h.ordinary.node?_eq, h.active]

theorem Finds.find_directory : ∃ t, d.find log.directory = .ok (here, .directory t) := by
  obtain ⟨hne, hsize, hw, -⟩ := walk_directory h.goal h.file
  obtain ⟨t, ht⟩ := Disk.walk_directory hw (Disk.start_directory d log.directory)
  exact ⟨t, Disk.find_directory (Disk.resolve_of_walk hne hsize hw) ht⟩

/-- The active file is not taken for a segment. -/
theorem Finds.key?_base : log.family.key? base.toList = none := by
  rw [← SegmentFamily.ofPath_append (walk_directory h.goal h.file).2.2.2]
  exact log.family.key?_active

/-- A segment is listed under its name, which is another one than that of the active file. -/
theorem Finds.name_segment {e : SegmentFile × List UInt8} (he : e ∈ old) :
    IsName e.1.name ∧ e.1.name ≠ base := by
  have hmem : e.1 ∈ SegmentFile.ofNames log.family (d.namesIn here) := by
    rw [h.listed]
    exact List.mem_map_of_mem he
  obtain ⟨hname, hkey⟩ := SegmentFile.mem_ofNames.1 hmem
  refine ⟨h.names e.1.name hname, fun hbase => ?_⟩
  rw [hbase, h.key?_base] at hkey
  cases hkey

theorem Finds.goal_segment {e : SegmentFile × List UInt8} (he : e ∈ old) :
    d.goal (log.pathOf e.1) = .ok (.named here e.1.name) := by
  obtain ⟨hne, -, hw, -⟩ := walk_directory h.goal h.file
  have hname := (h.name_segment he).1
  have hne' : log.pathOf e.1 ≠ [] := Disk.Path.join_ne_nil hne _
  have hstart : Disk.start (log.pathOf e.1) = Disk.start log.directory := by
    unfold Disk.start pathOf
    rw [Disk.Path.head?_join hne]
  -- The path is not too long, as the file at its end can be read.
  by_cases hlong : Disk.longestPath < (String.ofList (log.pathOf e.1)).utf8ByteSize
  · have hread := h.readable e he
    simp only [Disk.read, Disk.find, Disk.resolve, Disk.goal_of_long hne' hlong, bind,
      Except.bind] at hread
    cases hread
  · rw [Disk.goal_eq hne' hlong (Disk.Path.names_join hname) (hstart ▸ hw), if_neg]
    rw [not_or]
    exact ⟨hname.ne_here, hname.ne_above⟩

/-- A change of the active file leaves the segments as they were. -/
theorem Finds.put_active (k : Kept) :
    log.Finds (d.put (here ++ [base]) k.node) here base (some k) old := by
  have hkeeps : Disk.KeepsDirectories d (d.put (here ++ [base]) k.node) := by
    refine h.ordinary.keepsDirectories_put (fun t => ?_) _
    rw [h.active]
    cases active <;> exact nofun
  refine ⟨Disk.goal_of_keeps hkeeps h.goal, h.file, h.fits, ?_, fun x hx => ?_, ?_, fun e he => ?_⟩
  · rw [h.ordinary.node?_put, if_pos rfl]
    rfl
  · rcases Disk.mem_namesIn_put.1 hx with rfl | hx
    · exact (Disk.goal_named h.goal).2.2.1
    · exact h.names x hx
  · rw [← h.listed]
    refine SegmentFile.ofNames_congr (Disk.nodup_namesIn _ _) (Disk.nodup_namesIn _ _) fun x hx => ?_
    rw [Disk.mem_namesIn_put]
    refine or_iff_right fun hbase => hx ?_
    rw [hbase]
    exact h.key?_base
  · rw [Disk.read_of_keeps hkeeps (h.goal_segment he), h.readable e he]
    rw [h.ordinary.node?_put, if_neg]
    exact fun heq => (h.name_segment he).2 (Disk.name_inj heq)

theorem Finds.run_segments (now : Int) :
    log.segments.run.run now d = (.ok (old.map fun e => log.pathOf e.1), d) := by
  obtain ⟨t, ht⟩ := h.find_directory
  rw [run_segments_of_list (Disk.list_eq ht), h.listed, List.map_map]
  rfl

/-! ## Accesses to the active file -/

theorem Finds.perform_read_none (now : Int) (ha : active = none) :
    Disk.perform now d (.read log.path) = (.error .notFound, d) := by
  have hget := h.get?_active
  rw [ha] at hget
  exact congrArg (·, d) (h.reaches.read_none hget)

theorem Finds.perform_stat_none (now : Int) (ha : active = none) :
    Disk.perform now d (.stat log.path) = (.error .notFound, d) := by
  have hget := h.get?_active
  rw [ha] at hget
  exact congrArg (·, d) (h.reaches.stat_none hget)

theorem Finds.openAppend_none (now : Int) (ha : active = none) :
    ∃ d', Disk.perform now d (.openAppend log.path) = (.ok 0, d') ∧
      log.Finds d' here base (some ⟨[], now⟩) old := by
  have hget := h.get?_active
  rw [ha] at hget
  refine ⟨_, ?_, h.put_active ⟨[], now⟩⟩
  rw [Disk.perform, h.reaches.openAppend_none hget]
  rfl

section Active

variable {k : Kept} (ha : active = some k)

include ha

theorem Finds.get?_some : d.nodes.get? (here ++ [base]) = some (.file k.content k.modified) := by
  rw [h.get?_active, ha]
  rfl

theorem Finds.perform_read (now : Int) :
    Disk.perform now d (.read log.path) = (.ok k.content, d) :=
  congrArg (·, d) (h.reaches.read_file (h.get?_some ha))

theorem Finds.perform_stat (now : Int) :
    Disk.perform now d (.stat log.path) = (.ok ⟨k.content.length, k.modified⟩, d) :=
  congrArg (·, d) (h.reaches.stat_file (h.get?_some ha))

theorem Finds.perform_openAppend (now : Int) :
    Disk.perform now d (.openAppend log.path) = (.ok k.content.length, d) := by
  rw [Disk.perform, h.reaches.openAppend_file (h.get?_some ha)]

theorem Finds.perform_sync (now : Int) : Disk.perform now d (.sync log.path) = (.ok (), d) :=
  congrArg (·, d) (h.reaches.sync_file (h.get?_some ha))

theorem Finds.append (now : Int) (bs : List UInt8) :
    ∃ d', Disk.perform now d (.append log.path bs) = (.ok (), d') ∧
      log.Finds d' here base (some ⟨k.content ++ bs, now⟩) old :=
  ⟨_, congrArg (Disk.changed d) (h.reaches.append_file (h.get?_some ha) bs),
    h.put_active ⟨k.content ++ bs, now⟩⟩

theorem Finds.truncate (now : Int) (n : Nat) :
    ∃ d', Disk.perform now d (.truncate log.path n) = (.ok (), d') ∧
      log.Finds d' here base (some ⟨k.content.take n, now⟩) old :=
  ⟨_, congrArg (Disk.changed d) (h.reaches.truncate_file (h.get?_some ha) n),
    h.put_active ⟨k.content.take n, now⟩⟩

/-- A line is added to the active file. -/
theorem Finds.run_writeLine (now : Int) (line : List UInt8) :
    ∃ d', (writeLine log.path line).run.run now d = (.ok (), d') ∧
      log.Finds d' here base (some ⟨k.content ++ line, now⟩) old := by
  obtain ⟨d', happend, h'⟩ := h.append ha now line
  have hflush : Disk.perform now d' (.flush log.path) = (.ok (), d') := rfl
  refine ⟨d', ?_, h'⟩
  rw [writeLine, Action.run_bind_ok (Action.run_access_ok happend),
    Action.run_bind_ok (Action.run_access_ok hflush)]
  exact Action.run_access_ok (h'.perform_sync rfl now)

/-- The active file is cut after its last entry, and that line is ended. -/
theorem Finds.run_mend (now : Int) (c : Segment.Content) :
    ∃ d', (mend log.path c).run.run now d = (.ok (), d') ∧
      log.Finds d' here base (some ⟨c.mended k.content, now⟩) old := by
  obtain ⟨d₁, hcut, h₁⟩ := h.truncate ha now c.cleanLength
  by_cases hend : 0 < c.cleanLength ∧ !c.endsWithNewline
  · obtain ⟨d₂, hline, h₂⟩ := h₁.run_writeLine rfl now [Segment.newline]
    refine ⟨d₂, ?_, ?_⟩
    · rw [mend, Action.run_bind_ok (Action.run_access_ok hcut)]
      simp only [if_pos hend]
      exact hline
    · rw [Segment.Content.mended, if_pos hend]
      exact h₂
  · refine ⟨d₁, ?_, ?_⟩
    · rw [mend, Action.run_bind_ok (Action.run_access_ok hcut)]
      simp only [if_neg hend]
      exact Action.run_access_ok (h₁.perform_sync rfl now)
    · rw [Segment.Content.mended, if_neg hend, List.append_nil]
      exact h₁

end Active

end Finds

/-! ## Reading files one after the other -/

theorem run_parseFile_ok {bs : List UInt8} {c : Segment.Content} (h : Segment.parse bs = .ok c)
    (path : List Char) (now : Int) (d : Disk) :
    (parseFile path bs).run.run now d = (.ok c, d) := by
  rw [parseFile, h]
  rfl

theorem run_parseFile_error {bs : List UInt8} {line : Nat} (h : Segment.parse bs = .error line)
    (path : List Char) (now : Int) (d : Disk) :
    (parseFile path bs).run.run now d
      = (.error (.corrupt (String.ofList path) line damage), d) := by
  rw [parseFile, h]
  rfl

section Read

variable {d : Disk} {now : Int} {fs : List (List Char × List UInt8)}

/-- Sound files are read as the entries on their lines. -/
theorem run_readSegments_of_sound (hread : ∀ f ∈ fs, d.read f.1 = .ok f.2)
    (h : ∀ f ∈ fs, Sound (Segment.lines f.2)) :
    (readSegments (fs.map Prod.fst)).run.run now d = (.ok (fs.flatMap fun f => entriesOf f.2), d) := by
  induction fs with
  | nil => rfl
  | cons f fs ih =>
      obtain ⟨c, hparse, hentries, -⟩ := Segment.parse_of_sound (h f (List.mem_cons_self ..))
      have hbytes : Disk.perform now d (.read f.1) = (.ok f.2, d) :=
        congrArg (·, d) (hread f (List.mem_cons_self ..))
      have ih := ih (fun g hg => hread g (List.mem_cons_of_mem _ hg)) fun g hg =>
        h g (List.mem_cons_of_mem _ hg)
      rw [List.map_cons, readSegments, Action.run_bind_ok (Action.run_access_ok hbytes),
        Action.run_bind_ok (run_parseFile_ok hparse f.1 now d), Action.run_bind_ok ih, hentries]
      rfl

/-- The first file that is not sound is told, with the line that is damaged. -/
theorem run_readSegments_of_spoiledAt {f : List Char × List UInt8} {n : Nat}
    {rest : List (List Char × List UInt8)} (hread : ∀ g ∈ fs ++ f :: rest, d.read g.1 = .ok g.2)
    (h : ∀ g ∈ fs, Sound (Segment.lines g.2)) (hf : SpoiledAt (Segment.lines f.2) n) :
    (readSegments ((fs ++ f :: rest).map Prod.fst)).run.run now d
      = (.error (.corrupt (String.ofList f.1) (n + 1) damage), d) := by
  induction fs with
  | nil =>
      have hbytes : Disk.perform now d (.read f.1) = (.ok f.2, d) :=
        congrArg (·, d) (hread f (List.mem_cons_self ..))
      rw [List.nil_append, List.map_cons, readSegments,
        Action.run_bind_ok (Action.run_access_ok hbytes), Action.run_bind_error
          (run_parseFile_error (Segment.parse_of_spoiledAt hf) f.1 now d)]
  | cons g fs ih =>
      obtain ⟨c, hparse, -⟩ := Segment.parse_of_sound (h g (List.mem_cons_self ..))
      have hbytes : Disk.perform now d (.read g.1) = (.ok g.2, d) :=
        congrArg (·, d) (hread g (List.mem_cons_self ..))
      have ih := ih (fun e he => hread e (List.mem_cons_of_mem _ he)) fun e he =>
        h e (List.mem_cons_of_mem _ he)
      rw [List.cons_append, List.map_cons, readSegments,
        Action.run_bind_ok (Action.run_access_ok hbytes),
        Action.run_bind_ok (run_parseFile_ok hparse g.1 now d), Action.run_bind_error ih]

end Read

/-! ## Replay -/

/-- The entries of segments. -/
def entriesIn (old : List (SegmentFile × List UInt8)) : List Entry :=
  old.flatMap fun e => entriesOf e.2

/-- The segments as files under their paths. -/
def segmentFiles (log : Log) (old : List (SegmentFile × List UInt8)) :
    List (List Char × List UInt8) := old.map fun e => (log.pathOf e.1, e.2)

section Replay

variable {log : Log} {d : Disk} {here : Place} {base : String} {active : Option Kept}
  {old : List (SegmentFile × List UInt8)} (h : log.Finds d here base active old)

include h

theorem Finds.read_segmentFiles {f : List Char × List UInt8} (hf : f ∈ log.segmentFiles old) :
    d.read f.1 = .ok f.2 := by
  obtain ⟨e, he, rfl⟩ := List.mem_map.1 hf
  exact h.readable e he

theorem Finds.run_segments_files (now : Int) :
    log.segments.run.run now d = (.ok ((log.segmentFiles old).map Prod.fst), d) := by
  rw [h.run_segments, segmentFiles, List.map_map]
  rfl

variable (hold : ∀ e ∈ old, Sound (Segment.lines e.2))

section Sound

include hold

theorem Finds.run_readSegments (now : Int) :
    (readSegments ((log.segmentFiles old).map Prod.fst)).run.run now d
      = (.ok (entriesIn old), d) := by
  rw [run_readSegments_of_sound fun f hf => h.read_segmentFiles hf]
  · rw [segmentFiles, List.flatMap_map]
    rfl
  · intro f hf
    obtain ⟨e, he, rfl⟩ := List.mem_map.1 hf
    exact hold e he

theorem Finds.run_replay_none (now : Int) (ha : active = none) :
    log.replay.run.run now d = (.ok ⟨entriesIn old, old.length, false⟩, d) := by
  rw [replay, Action.run_bind_ok (h.run_segments_files now),
    Action.run_bind_ok (h.run_readSegments hold now),
    Action.run_bind_ok (Action.run_accessIfThere_notFound (h.perform_read_none now ha))]
  simp [segmentFiles]
  rfl

variable {k : Kept} (ha : active = some k)

include ha

/-- Once the active file has been read, a replay does what its end needs. -/
theorem Finds.run_replay_parsed {now : Int} {c : Segment.Content} {d' : Disk}
    (hparse : Segment.parse k.content = .ok c)
    (hend : (if needsMending c k.content.length then mend log.path c else pure () :
      Action Unit).run.run now d = (.ok (), d')) :
    log.replay.run.run now d = (.ok ⟨entriesIn old ++ c.entries, old.length + 1, c.torn⟩, d') := by
  rw [replay, Action.run_bind_ok (h.run_segments_files now),
    Action.run_bind_ok (h.run_readSegments hold now),
    Action.run_bind_ok (Action.run_accessIfThere_ok (h.perform_read ha now))]
  simp only []
  rw [Action.run_bind_ok (run_parseFile_ok hparse log.path now d)]
  have hlength : ((log.segmentFiles old).map Prod.fst).length = old.length := by
    simp [segmentFiles]
  by_cases hneeds : needsMending c k.content.length = true
  · simp only [if_pos hneeds] at hend ⊢
    rw [Action.run_bind_ok hend, hlength]
    rfl
  · simp only [if_neg hneeds] at hend ⊢
    rw [hlength]
    cases hend
    rfl

/-- If all files are sound, a replay reads the entries on their lines and leaves the clean part of
    the active file. -/
theorem Finds.run_replay_some (hk : Sound (Segment.lines k.content)) (now : Int) :
    ∃ torn d' t, log.replay.run.run now d
        = (.ok ⟨entriesIn old ++ entriesOf k.content, old.length + 1, torn⟩, d') ∧
      (torn = true ↔ IsTorn (Segment.lines k.content)) ∧
      log.Finds d' here base (some ⟨tidy k.content, t⟩) old := by
  obtain ⟨c, hparse, hentries, htorn, -⟩ := Segment.parse_of_sound hk
  rw [← hentries]
  by_cases hneeds : needsMending c k.content.length = true
  · obtain ⟨d', hmend, hd'⟩ := h.run_mend ha now c
    rw [Segment.mended_eq_tidy hk hparse] at hd'
    refine ⟨c.torn, d', now, h.run_replay_parsed hold ha hparse ?_, htorn, hd'⟩
    rw [if_pos hneeds]
    exact hmend
  · have htidy := Segment.tidy_eq_of_not_needsMending hk hparse (by simpa using hneeds)
    refine ⟨c.torn, d, k.modified, h.run_replay_parsed hold ha hparse ?_, htorn, ?_⟩
    · rw [if_neg hneeds]
      rfl
    · rw [htidy, ← ha]
      exact h

/-- A clean file is left as it is. -/
theorem Finds.run_replay_clean (hk : Clean k.content) (now : Int) :
    log.replay.run.run now d
      = (.ok ⟨entriesIn old ++ entriesOf k.content, old.length + 1, false⟩, d) := by
  refine h.run_replay_parsed hold ha hk.parse ?_
  rw [if_neg (by simp [needsMending])]
  rfl

/-- If the active file is the first that is not sound, its line is told. -/
theorem Finds.run_replay_active_spoiledAt {n : Nat}
    (hk : SpoiledAt (Segment.lines k.content) n) (now : Int) :
    log.replay.run.run now d
      = (.error (.corrupt (String.ofList log.path) (n + 1) damage), d) := by
  rw [replay, Action.run_bind_ok (h.run_segments_files now),
    Action.run_bind_ok (h.run_readSegments hold now),
    Action.run_bind_ok (Action.run_accessIfThere_ok (h.perform_read ha now))]
  exact Action.run_bind_error
    (run_parseFile_error (Segment.parse_of_spoiledAt hk) log.path now d)

end Sound

/-- If a segment is the first file that is not sound, its line is told. -/
theorem Finds.run_replay_segment_spoiledAt {fs rest : List (List Char × List UInt8)}
    {f : List Char × List UInt8} {n : Nat} (hsplit : log.segmentFiles old = fs ++ f :: rest)
    (hfs : ∀ g ∈ fs, Sound (Segment.lines g.2)) (hf : SpoiledAt (Segment.lines f.2) n)
    (now : Int) :
    log.replay.run.run now d
      = (.error (.corrupt (String.ofList f.1) (n + 1) damage), d) := by
  rw [replay, Action.run_bind_ok (h.run_segments_files now), hsplit]
  refine Action.run_bind_error (run_readSegments_of_spoiledAt (fun g hg => ?_) hfs hf)
  exact h.read_segmentFiles (hsplit ▸ hg)

/-! ## All files -/

/-- The files of a log under their paths, in the order in which they are read. -/
def files (log : Log) (active : Option Kept) (old : List (SegmentFile × List UInt8)) :
    List (List Char × List UInt8) :=
  log.segmentFiles old ++ (active.map fun k => (log.path, k.content)).toList

omit h in
theorem forall_mem_files {P : List UInt8 → Prop} : (∀ f ∈ log.files active old, P f.2) ↔
    (∀ e ∈ old, P e.2) ∧ ∀ k, active = some k → P k.content := by
  rw [files, segmentFiles, List.forall_mem_append, List.forall_mem_map]
  cases active <;> simp

/-- The first file that is not sound is told, with the first of its lines that is damaged and that
    something stands behind. The disk is left as it was. -/
theorem Finds.run_replay_spoiledAt {fs rest : List (List Char × List UInt8)}
    {f : List Char × List UInt8} {n : Nat} (hsplit : log.files active old = fs ++ f :: rest)
    (hfs : ∀ g ∈ fs, Sound (Segment.lines g.2)) (hf : SpoiledAt (Segment.lines f.2) n)
    (now : Int) :
    log.replay.run.run now d
      = (.error (.corrupt (String.ofList f.1) (n + 1) damage), d) := by
  -- The file is the active one if no segment is left.
  have hlast : f :: rest = (active.map fun k => (log.path, k.content)).toList →
      (∀ e ∈ old, Sound (Segment.lines e.2)) → log.replay.run.run now d
        = (.error (.corrupt (String.ofList f.1) (n + 1) damage), d) := by
    intro hactive hold
    cases ha : active with
    | none =>
        rw [ha] at hactive
        cases hactive
    | some k =>
        rw [ha] at hactive
        obtain ⟨rfl, -⟩ := List.cons.inj hactive
        exact h.run_replay_active_spoiledAt hold ha hf now
  rcases List.append_eq_append_iff.1 hsplit with ⟨fs', rfl, hactive⟩ | ⟨rest', hsegments, hactive⟩
  · have hnil : fs' = [] := by
      cases active with
      | none => simp at hactive
      | some k =>
          rcases List.singleton_eq_append_iff.1 hactive with ⟨hnil, -⟩ | ⟨-, hnil⟩
          · exact hnil
          · cases hnil
    rw [hnil] at hactive
    exact hlast (by simpa using hactive.symm) fun e he =>
      hfs _ (List.mem_append_left _ (List.mem_map_of_mem he))
  · rcases List.cons_eq_append_iff.1 hactive with ⟨rfl, hactive⟩ | ⟨rest'', rfl, -⟩
    · rw [List.append_nil] at hsegments
      refine hlast (by simpa using hactive) fun e he => hfs (log.pathOf e.1, e.2) ?_
      rw [← hsegments]
      exact List.mem_map_of_mem he
    · exact h.run_replay_segment_spoiledAt hsegments hfs hf now

omit h in
/-- Either all files are sound, or there is a first one that is not. -/
theorem sound_or_spoiledAt_files (fs : List (List Char × List UInt8)) :
    (∀ f ∈ fs, Sound (Segment.lines f.2)) ∨ ∃ before f rest n, fs = before ++ f :: rest ∧
      (∀ g ∈ before, Sound (Segment.lines g.2)) ∧ SpoiledAt (Segment.lines f.2) n := by
  induction fs with
  | nil => exact .inl nofun
  | cons f fs ih =>
      rcases Segment.sound_or_spoiledAt (Segment.lines f.2) with hf | ⟨n, hf⟩
      · rcases ih with hfs | ⟨before, g, rest, n, rfl, hbefore, hg⟩
        · exact .inl (List.forall_mem_cons.2 ⟨hf, hfs⟩)
        · exact .inr ⟨f :: before, g, rest, n, rfl, List.forall_mem_cons.2 ⟨hf, hbefore⟩, hg⟩
      · exact .inr ⟨[], f, fs, n, rfl, nofun, hf⟩

/-- A log that can be read has sound files only. -/
theorem Finds.sound_of_run_replay {now : Int} {r : Replay} {d' : Disk}
    (hrun : log.replay.run.run now d = (.ok r, d')) :
    ∀ f ∈ log.files active old, Sound (Segment.lines f.2) := by
  rcases sound_or_spoiledAt_files (log.files active old) with
    hs | ⟨before, f, rest, n, hsplit, hbefore, hf⟩
  · exact hs
  · rw [h.run_replay_spoiledAt hsplit hbefore hf now] at hrun
    cases hrun

/-- Sound files are read as the entries on their lines, file by file. -/
theorem Finds.run_replay_of_sound (hs : ∀ f ∈ log.files active old, Sound (Segment.lines f.2))
    (now : Int) :
    ∃ r d', log.replay.run.run now d = (.ok r, d') ∧
      r.entries = (log.files active old).flatMap fun f => entriesOf f.2 := by
  obtain ⟨hold, hactive⟩ := (forall_mem_files (P := fun bs => Sound (Segment.lines bs))).1 hs
  have hentries : (log.segmentFiles old).flatMap (fun f => entriesOf f.2) = entriesIn old := by
    rw [segmentFiles, List.flatMap_map]
    rfl
  cases ha : active with
  | none =>
      refine ⟨_, d, h.run_replay_none hold now ha, ?_⟩
      simp [files, hentries]
  | some k =>
      obtain ⟨torn, d', t, hrun, -⟩ := h.run_replay_some hold ha (hactive k ha) now
      refine ⟨_, d', hrun, ?_⟩
      simp [files, hentries]

end Replay

/-! ## A log to look at -/

/-- A log in the working directory, without settings. -/
def foundLog : Log := .atPath "tasks.json"

/-- A segment of the first day of a year. -/
def foundSegment : SegmentFile := ⟨⟨2024, 1, 1⟩, 0, "tasks-2024-01-01.json"⟩

/-- A disk with this segment and an active file. -/
def foundDisk (segment active : List UInt8) : Disk :=
  (Disk.put ⟨.empty⟩ ["tasks-2024-01-01.json"] (.file segment 0)).put ["tasks.json"]
    (.file active 0)

theorem finds_foundDisk (segment active : List UInt8) :
    foundLog.Finds (foundDisk segment active) [] "tasks.json" (some ⟨active, 0⟩)
      [(foundSegment, segment)] := by
  have hname : IsName "tasks.json" := ⟨by decide, by decide, by decide, by decide⟩
  have hname' : IsName "tasks-2024-01-01.json" := ⟨by decide, by decide, by decide, by decide⟩
  have hb : foundLog.Begins ⟨.empty⟩ [] "tasks.json" := begins_of_name rfl hname (by decide)
  have hproper : foundLog.Proper foundSegment :=
    ⟨⟨by decide +kernel, by decide, by decide⟩, by decide, by decide +kernel⟩
  have hsame : Disk.SameOutside [] ⟨.empty⟩ (foundDisk segment active) := by
    refine .of_get? fun p hp => ?_
    have hactive : p ≠ ["tasks.json"] := hp _ hname
    have hsegment : p ≠ ["tasks-2024-01-01.json"] := hp _ hname'
    rw [foundDisk, Disk.get?_put, if_neg hactive, Disk.get?_put, if_neg hsegment]
  have hreaches : Reaches (foundDisk segment active) (foundLog.pathOf foundSegment)
      ["tasks-2024-01-01.json"] :=
    hb.fits_segment hproper (by decide +kernel) (by decide) _ hsame
  have hnames : (foundDisk segment active).namesIn [] = ["tasks-2024-01-01.json", "tasks.json"] :=
    rfl
  refine ⟨Disk.goal_sameOutside hb.vacant hsame hb.goal, hb.file, hb.fits, rfl, fun x hx => ?_, ?_,
    fun e he => ?_⟩
  · rw [hnames] at hx
    rcases List.mem_cons.1 hx with rfl | hx
    · exact hname'
    · rw [List.mem_singleton.1 hx]
      exact hname
  · have hperm : ["tasks-2024-01-01.json", "tasks.json"].Perm
        (["tasks.json"] ++ [foundSegment].map SegmentFile.name) := .swap _ _ []
    refine (SegmentFile.ofNames_eq hperm ?_ ?_).trans (List.mergeSort_singleton _)
    · decide +kernel
    · decide +kernel
  · rw [List.mem_singleton.1 he]
    exact hreaches.read_file rfl

end Reachability.Log
