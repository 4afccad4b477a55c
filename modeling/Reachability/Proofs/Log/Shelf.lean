import Reachability.Proofs.Disk.Tree
import Reachability.Proofs.Log.Action
import Reachability.Proofs.Log.SegmentName

set_option autoImplicit false

/-! # The directory of a log

A log that begins in an empty directory has nothing there but its active file and its segments: a
shelf (`Holds`). Each access of the log is described by what it makes of the shelf. -/

namespace Reachability.Log

open Disk (Place Reaches SameOutside Vacant)
open Disk.Path (IsName)

/-! ## Where the log is -/

theorem directory_eq {log : Log} {dir : List Char} (h : Disk.Path.parent log.path = dir)
    (hne : dir ≠ []) : log.directory = dir := by
  unfold directory
  rw [h]
  split
  · exact absurd rfl hne
  · rfl

/-- The directory of a log is the one that its path ends in. -/
theorem walk_directory {log : Log} {d : Disk} {here : Place} {base : String}
    (hg : d.goal log.path = .ok (.named here base))
    (hf : Disk.wantsDirectory log.path = false) :
    log.directory ≠ [] ∧
      ¬ Disk.longestPath < (String.ofList log.directory).utf8ByteSize ∧
      d.walk (Disk.start log.directory) (Disk.Path.names log.directory) = .ok here ∧
      Disk.Path.name? log.path = some base.toList := by
  obtain ⟨hne, hsize, hbase, ns, hns, hw⟩ := Disk.goal_named hg
  have hlast : log.path.getLast? ≠ some '/' := by
    unfold Disk.wantsDirectory at hf
    simpa using hf
  rcases Disk.Path.exists_front hns hlast with ⟨hpath, rfl⟩ | ⟨front, hpath, hfront⟩
  -- The path is a name alone. Then the directory is the one it starts in.
  · have hcut : Disk.Path.cut log.path = ([], base.toList) := by
      rw [hpath]
      exact Disk.Path.cut_of_not_mem hbase.ne_empty hbase.slash hbase.toList_ne_here
    have hdir : log.directory = ['.'] := by
      unfold directory
      rw [Disk.Path.parent_eq hcut hbase.ne_empty]
      rfl
    have hstart : Disk.start log.path = [] := by
      unfold Disk.start
      rw [hpath, if_neg fun hhead => hbase.slash (List.mem_of_head? hhead)]
    rw [hstart, Disk.walk] at hw
    refine ⟨by rw [hdir]; simp, by rw [hdir]; decide, ?_, ?_⟩
    · rw [hdir, ← Except.ok.inj hw]
      rfl
    · exact Disk.Path.name?_eq hcut hbase.ne_empty hbase.toList_ne_here hbase.toList_ne_above
  -- Slashes and dots at the end of the front lead to the same directory.
  · have hcut : Disk.Path.cut log.path = ('/' :: front.reverse, base.toList) := by
      rw [hpath]
      exact Disk.Path.cut_append hbase.ne_empty hbase.slash hbase.toList_ne_here
    have hnil : Disk.Path.strip ('/' :: front.reverse) ≠ [] := Disk.Path.strip_ne_nil (by simp)
    have hdir : log.directory = (Disk.Path.strip ('/' :: front.reverse)).reverse :=
      directory_eq (Disk.Path.parent_eq hcut hbase.ne_empty) (by simpa using hnil)
    have hdir0 : log.directory ≠ [] := by
      rw [hdir]
      simpa using hnil
    obtain ⟨rest, hrest⟩ := Disk.Path.strip_suffix ('/' :: front.reverse)
    have hpieces : log.path = log.directory ++ (rest.reverse ++ base.toList) := by
      have hrev := congrArg List.reverse hrest
      rw [List.reverse_append, ← hdir, List.reverse_cons, List.reverse_reverse] at hrev
      rw [hpath, ← List.append_assoc, hrev]
      simp
    refine ⟨hdir0, ?_, ?_, ?_⟩
    · rw [hpieces, String.ofList_append, String.utf8ByteSize_append] at hsize
      omega
    · obtain ⟨n, hn⟩ := Disk.Path.exists_names_strip ('/' :: front.reverse)
      rw [List.reverse_cons, List.reverse_reverse, Disk.Path.names_append_slash,
        Disk.Path.names_nil, List.append_nil, hfront, ← hdir] at hn
      have hstart : Disk.start log.directory = Disk.start log.path := by
        unfold Disk.start
        rw [hpieces, List.head?_append, List.head?_eq_some_head hdir0, Option.some_or]
      rw [hn, ← hstart] at hw
      exact Disk.walk_of_replicate hw
    · exact Disk.Path.name?_eq hcut hbase.ne_empty hbase.toList_ne_here hbase.toList_ne_above

/-- A log begins: its directory is there and empty, and its name is one that a file can have. -/
structure Begins (log : Log) (d : Disk) (here : Place) (base : String) : Prop where
  goal : d.goal log.path = .ok (.named here base)
  file : Disk.wantsDirectory log.path = false
  fits : ¬ Disk.longestName < base.utf8ByteSize
  vacant : Vacant d here

/-- A log can begin on an empty disk, under every name that a file can have. -/
theorem begins_of_name {log : Log} {base : String} (hpath : log.path = base.toList)
    (hname : IsName base) (hfits : ¬ Disk.longestName < base.utf8ByteSize) :
    log.Begins ⟨.empty⟩ [] base where
  goal := by
    have hsize : ¬ Disk.longestPath < (String.ofList log.path).utf8ByteSize := by
      rw [hpath, String.ofList_toList]
      exact fun h => hfits (Nat.lt_trans (by decide) h)
    have hnames : Disk.Path.names log.path = [] ++ [base] := by
      rw [hpath, Disk.Path.names_toList hname]
      rfl
    have hstart : Disk.start log.path = [] := by
      unfold Disk.start
      rw [hpath, if_neg fun hhead => hname.slash (List.mem_of_head? hhead)]
    have hne : log.path ≠ [] := by
      rw [hpath]
      exact hname.ne_empty
    have hw : Disk.walk ⟨.empty⟩ (Disk.start log.path) [] = .ok [] := by
      rw [hstart, Disk.walk]
    rw [Disk.goal_eq hne hsize hnames hw, if_neg]
    rw [not_or]
    exact ⟨hname.ne_here, hname.ne_above⟩
  file := by
    rw [Disk.wantsDirectory, hpath]
    have := Disk.Path.getLast?_ne_slash (p := []) hname.ne_empty hname.slash
    simpa using this
  fits := hfits
  vacant := Disk.vacant_empty

/-- The path of a segment that is there already. -/
def pathOf (log : Log) (s : SegmentFile) : List Char := Disk.Path.join log.directory s.name.toList

theorem segmentPath_eq (log : Log) (date : CivilDate) (n : Nat) :
    log.segmentPath date.text n = log.pathOf (log.family.segment date n) := by
  rw [segmentPath, pathOf, SegmentFamily.segment, String.toList_ofList]

/-- Segments are found by the names in the directory of the log. -/
theorem run_segments_of_list {log : Log} {d : Disk} {names : List String}
    (h : d.list log.directory = .ok names) (now : Int) : log.segments.run.run now d =
      (.ok ((SegmentFile.ofNames log.family names).map log.pathOf), d) := by
  have hlist : Disk.perform now d (.list log.directory) = (.ok names, d) := by
    rw [Disk.perform, h]
  rw [segments, Action.run_bind_ok (Action.run_accessIfThere_ok hlist)]
  rfl

/-- A segment whose name is the one that its date and its number make. -/
structure Proper (log : Log) (s : SegmentFile) : Prop where
  plain : s.date.Plain
  small : s.number < Text.halfWordBound
  segment : s = log.family.segment s.date s.number

theorem Proper.key? {log : Log} {s : SegmentFile} (h : log.Proper s) :
    log.family.key? s.name.toList = some (s.date, s.number) := by
  have hname : s.name.toList = log.family.name s.date.text s.number := by
    rw [congrArg SegmentFile.name h.segment, SegmentFamily.segment, String.toList_ofList]
  rw [hname]
  exact log.family.key?_name h.plain h.small

theorem Proper.eq_of_name {log : Log} {s t : SegmentFile} (hs : log.Proper s) (ht : log.Proper t)
    (h : s.name = t.name) : s = t := by
  have hkey := hs.key?
  rw [h, ht.key?] at hkey
  obtain ⟨hdate, hnumber⟩ := Prod.mk.inj (Option.some.inj hkey)
  rw [hs.segment, ht.segment, hdate, hnumber]

theorem proper_segment (log : Log) {date : CivilDate} (hd : date.Plain) {n : Nat}
    (hn : n < Text.halfWordBound) : log.Proper (log.family.segment date n) :=
  ⟨hd, hn, rfl⟩

/-- A segment has a name and a path that are short enough, so that a file can be there. -/
def Fits (log : Log) (d₀ : Disk) (here : Place) (s : SegmentFile) : Prop :=
  ∀ d, SameOutside here d₀ d → Reaches d (log.pathOf s) (here ++ [s.name])

section Begins

variable {log : Log} {d₀ : Disk} {here : Place} {base : String} (hb : log.Begins d₀ here base)

include hb

theorem Begins.isName : IsName base := (Disk.goal_named hb.goal).2.2.1

theorem Begins.append : log.family.stem ++ log.family.ending = base.toList :=
  SegmentFamily.ofPath_append (walk_directory hb.goal hb.file).2.2.2

theorem Begins.isName_of_proper {s : SegmentFile} (hs : log.Proper s) : IsName s.name := by
  rw [congrArg SegmentFile.name hs.segment]
  exact SegmentFamily.isName_name hb.isName hb.append hs.plain s.number

/-- The active file is not taken for a segment. -/
theorem Begins.key?_base : log.family.key? base.toList = none := by
  rw [← hb.append]
  exact log.family.key?_active

theorem Begins.ne_base {s : SegmentFile} (hs : log.Proper s) : s.name ≠ base := by
  intro h
  have hkey := hs.key?
  rw [h, hb.key?_base] at hkey
  cases hkey

theorem Begins.reaches {d : Disk} (h : SameOutside here d₀ d) :
    Reaches d log.path (here ++ [base]) :=
  Disk.reaches_of_goal (Disk.goal_sameOutside hb.vacant h hb.goal) hb.file hb.fits
    (hb.vacant.ordinary hb.isName)

theorem Begins.find_directory {d : Disk} (h : SameOutside here d₀ d) :
    ∃ t, d.find log.directory = .ok (here, .directory t) := by
  obtain ⟨hne, hsize, hw, -⟩ := walk_directory hb.goal hb.file
  have hw := Disk.walk_sameOutside hb.vacant h hw
  obtain ⟨t, ht⟩ := Disk.walk_directory hw (Disk.start_directory d log.directory)
  exact ⟨t, Disk.find_directory (Disk.resolve_of_walk hne hsize hw) ht⟩

/-- The path of a segment always leads into the directory, unless it is too long. -/
theorem Begins.goal_pathOf {s : SegmentFile} (hs : log.Proper s) {d : Disk}
    (h : SameOutside here d₀ d) : d.goal (log.pathOf s) =
      if Disk.longestPath < (String.ofList (log.pathOf s)).utf8ByteSize then .error .nameTooLong
      else .ok (.named here s.name) := by
  obtain ⟨hne, -, hw, -⟩ := walk_directory hb.goal hb.file
  have hw := Disk.walk_sameOutside hb.vacant h hw
  have hname := hb.isName_of_proper hs
  have hne' : log.pathOf s ≠ [] := Disk.Path.join_ne_nil hne _
  have hstart : Disk.start (log.pathOf s) = Disk.start log.directory := by
    unfold Disk.start pathOf
    rw [Disk.Path.head?_join hne]
  split
  · next hlong => exact Disk.goal_of_long hne' hlong
  · next hshort =>
    rw [Disk.goal_eq hne' hshort (Disk.Path.names_join hname) (hstart ▸ hw), if_neg]
    rw [not_or]
    exact ⟨hname.ne_here, hname.ne_above⟩

/-- A segment fits if its path and its name are not too long. -/
theorem Begins.fits_segment {s : SegmentFile} (hs : log.Proper s)
    (hshort : ¬ Disk.longestPath < (String.ofList (log.pathOf s)).utf8ByteSize)
    (hfit : ¬ Disk.longestName < s.name.utf8ByteSize) : log.Fits d₀ here s := by
  intro d hd
  have hname := hb.isName_of_proper hs
  have hgoal := hb.goal_pathOf hs hd
  rw [if_neg hshort] at hgoal
  exact Disk.reaches_of_goal hgoal (Disk.wantsDirectory_join log.directory hname) hfit
    (hb.vacant.ordinary hname)

/-- If a segment does not fit, its path leads nowhere. -/
theorem Begins.fits_or_error {s : SegmentFile} (hs : log.Proper s) :
    log.Fits d₀ here s ∨
      ∀ d, SameOutside here d₀ d → ∃ fault, d.resolve (log.pathOf s) = .error fault := by
  have hname := hb.isName_of_proper hs
  by_cases hlong : Disk.longestPath < (String.ofList (log.pathOf s)).utf8ByteSize
  · right
    intro d hd
    refine ⟨.nameTooLong, ?_⟩
    rw [Disk.resolve, hb.goal_pathOf hs hd, if_pos hlong]
    rfl
  by_cases hfit : Disk.longestName < s.name.utf8ByteSize
  · right
    intro d hd
    refine ⟨.nameTooLong, ?_⟩
    simp only [Disk.resolve, hb.goal_pathOf hs hd, if_neg hlong, bind, Except.bind, Disk.entry,
      if_neg hname.ne_here, if_neg hname.ne_above, if_pos hfit]
  · exact .inl (hb.fits_segment hs hlong hfit)

end Begins

/-! ## What is there -/

/-- A file of a log. -/
structure Kept where
  content : List UInt8
  modified : Int

/-- The node of a file. -/
def Kept.node (k : Kept) : Disk.Node := .file k.content k.modified

/-- The active file of a log and its segments, in the order in which they were set aside. -/
structure Shelf where
  active : Option Kept
  segments : List (SegmentFile × Kept)

/-- The segments in the order in which they are read. -/
def Shelf.inOrder (s : Shelf) : List (SegmentFile × Kept) :=
  s.segments.mergeSort fun a b => a.1.le b.1

theorem Shelf.inOrder_perm (s : Shelf) : s.inOrder.Perm s.segments := List.mergeSort_perm ..

theorem Shelf.map_fst_inOrder (s : Shelf) :
    s.inOrder.map Prod.fst = (s.segments.map Prod.fst).mergeSort SegmentFile.le :=
  List.map_mergeSort (r := fun a b : SegmentFile × Kept => a.1.le b.1) (f := Prod.fst)
    fun _ _ _ _ => rfl

/-- The shelf of a log that has just begun. -/
def Shelf.empty : Shelf := ⟨none, []⟩

/-- What a disk holds in the directory of a log is a shelf, and nothing else has changed since the
    log began. -/
structure Holds (log : Log) (d₀ : Disk) (here : Place) (base : String) (d : Disk) (s : Shelf) :
    Prop where
  outside : SameOutside here d₀ d
  active : d.nodes.get? (here ++ [base]) = s.active.map Kept.node
  segment : ∀ e ∈ s.segments, d.nodes.get? (here ++ [e.1.name]) = some e.2.node
  nothing : ∀ x, x ≠ base → (∀ e ∈ s.segments, e.1.name ≠ x) → d.nodes.get? (here ++ [x]) = none
  proper : ∀ e ∈ s.segments, log.Proper e.1
  fits : ∀ e ∈ s.segments, log.Fits d₀ here e.1
  nodup : (s.segments.map Prod.fst).Nodup

section Holds

variable {log : Log} {d₀ d : Disk} {here : Place} {base : String} {s : Shelf} {k : Kept}
  (hb : log.Begins d₀ here base) (h : log.Holds d₀ here base d s)

include hb

theorem Begins.holds_empty : log.Holds d₀ here base d₀ .empty where
  outside := .refl here d₀
  active := hb.vacant.unlisted base
  segment := nofun
  nothing x _ _ := hb.vacant.unlisted x
  proper := nofun
  fits := nofun
  nodup := .nil

include h

theorem Holds.reaches : Reaches d log.path (here ++ [base]) := hb.reaches h.outside

omit hb in
theorem Holds.reaches_segment {e : SegmentFile × Kept} (he : e ∈ s.segments) :
    Reaches d (log.pathOf e.1) (here ++ [e.1.name]) := h.fits e he d h.outside

omit hb in
theorem Holds.get?_active (hk : s.active = some k) :
    d.nodes.get? (here ++ [base]) = some k.node := by
  rw [h.active, hk]
  rfl

omit hb in
theorem Holds.get?_none (hk : s.active = none) : d.nodes.get? (here ++ [base]) = none := by
  rw [h.active, hk]
  rfl

/-- The name of a segment is free unless that segment is there. -/
theorem Holds.get?_segment {t : SegmentFile} (ht : log.Proper t)
    (hfree : t ∉ s.segments.map Prod.fst) : d.nodes.get? (here ++ [t.name]) = none := by
  refine h.nothing t.name (hb.ne_base ht) fun e he hname => hfree ?_
  rw [← (h.proper e he).eq_of_name ht hname]
  exact List.mem_map_of_mem he

/-- Nothing lies below the active file. -/
theorem Holds.get?_below (x : String) (rest : List String) :
    d.nodes.get? (here ++ [base] ++ x :: rest) = none := by
  refine Disk.get?_eq_none_of_node?_eq_none ?_
  rw [List.append_assoc, List.singleton_append]
  rw [h.outside _ fun y _ heq => ?_, hb.vacant.node base (x :: rest) hb.isName]
  have := List.append_cancel_left heq
  simp at this

/-! ## What is listed -/

/-- The names of the active file. -/
def Shelf.activeNames (s : Shelf) (base : String) : List String :=
  if s.active.isSome then [base] else []

theorem Holds.namesIn_perm :
    (d.namesIn here).Perm (s.activeNames base ++ s.segments.map fun e => e.1.name) := by
  have hnames : (s.segments.map fun e => e.1.name).Nodup := by
    have hmap : (s.segments.map fun e => e.1.name) = (s.segments.map Prod.fst).map (·.name) := by
      rw [List.map_map]
      rfl
    rw [hmap]
    refine List.Pairwise.map _ (fun a b hab => hab) (List.Pairwise.imp_of_mem ?_ h.nodup)
    intro a b ha hb hab hname
    obtain ⟨e, he, rfl⟩ := List.mem_map.1 ha
    obtain ⟨e', he', rfl⟩ := List.mem_map.1 hb
    exact hab ((h.proper e he).eq_of_name (h.proper e' he') hname)
  have hbase : ∀ e ∈ s.segments, e.1.name ≠ base := fun e he => hb.ne_base (h.proper e he)
  have hactive := h.active
  -- No name is there twice, so only membership has to be compared.
  refine (List.perm_ext_iff_of_nodup (d.nodup_namesIn here) ?_).2 fun x => ?_
  · unfold Shelf.activeNames
    split
    · rw [List.singleton_append, List.nodup_cons]
      refine ⟨fun hmem => ?_, hnames⟩
      obtain ⟨e, he, hx⟩ := List.mem_map.1 hmem
      exact hbase e he hx
    · exact hnames
  · rw [Disk.mem_namesIn, List.mem_append, List.mem_map]
    constructor
    · rintro ⟨n, hn⟩
      by_cases hx : x = base
      · left
        subst hx
        rw [hactive] at hn
        obtain ⟨k, hk, -⟩ := Option.map_eq_some_iff.1 hn
        simp [Shelf.activeNames, hk]
      · right
        refine Classical.byContradiction fun hno => ?_
        rw [h.nothing x hx fun e he hname => hno ⟨e, he, hname⟩] at hn
        cases hn
    · rintro (hx | ⟨e, he, rfl⟩)
      · unfold Shelf.activeNames at hx
        split at hx
        · next hsome =>
          obtain ⟨k, hk⟩ := Option.isSome_iff_exists.1 hsome
          rw [List.mem_singleton.1 hx, hactive, hk]
          exact ⟨k.node, rfl⟩
        · cases hx
      · exact ⟨e.2.node, h.segment e he⟩

theorem Holds.ofNames_namesIn : SegmentFile.ofNames log.family (d.namesIn here)
    = (s.segments.map Prod.fst).mergeSort SegmentFile.le := by
  refine SegmentFile.ofNames_eq ?_ (fun x (hx : x ∈ s.activeNames base) => ?_) fun t ht => ?_
  · rw [List.map_map]
    exact h.namesIn_perm hb
  · unfold Shelf.activeNames at hx
    split at hx
    · rw [List.mem_singleton.1 hx]
      exact hb.key?_base
    · cases hx
  · obtain ⟨e, he, rfl⟩ := List.mem_map.1 ht
    exact (h.proper e he).key?

/-- The segments are found in the order of their names. -/
theorem Holds.run_segments (now : Int) : log.segments.run.run now d =
    (.ok (((s.segments.map Prod.fst).mergeSort SegmentFile.le).map log.pathOf), d) := by
  obtain ⟨t, ht⟩ := hb.find_directory h.outside
  rw [run_segments_of_list (Disk.list_eq ht), h.ofNames_namesIn hb]

/-! ## What changes -/

/-- A change of the active file. -/
theorem Holds.put_active (k : Kept) :
    log.Holds d₀ here base (d.put (here ++ [base]) k.node) { s with active := some k } where
  outside := by
    refine h.outside.trans (.of_get? fun p hp => ?_)
    rw [Disk.get?_put, if_neg (hp base hb.isName)]
  active := by
    rw [Disk.get?_put, if_pos rfl]
    rfl
  segment e he := by
    rw [Disk.get?_put, if_neg, h.segment e he]
    intro heq
    exact hb.ne_base (h.proper e he) (Disk.name_inj heq)
  nothing x hx hfree := by
    rw [Disk.get?_put, if_neg, h.nothing x hx hfree]
    intro heq
    exact hx (Disk.name_inj heq)
  proper := h.proper
  fits := h.fits
  nodup := h.nodup

/-- The active file is set aside under the name of a segment that is not there yet. -/
theorem Holds.rename {t : SegmentFile} (ht : log.Proper t) (hfit : log.Fits d₀ here t)
    (hfree : t ∉ s.segments.map Prod.fst) (hk : s.active = some k) :
    ∃ d', d.rename log.path (log.pathOf t) = .ok d' ∧
      log.Holds d₀ here base d' ⟨none, s.segments ++ [(t, k)]⟩ := by
  have hname := hb.isName_of_proper ht
  obtain ⟨d', hrename, hget⟩ := Disk.rename_file (h.reaches hb) (hfit d h.outside)
    (h.get?_active hk) (h.get?_segment hb ht hfree) (h.get?_below hb)
  refine ⟨d', hrename, ?_, ?_, ?_, ?_, ?_, ?_, ?_⟩
  · refine h.outside.trans (.of_get? fun p hp => ?_)
    rw [hget, if_neg (hp _ hname), if_neg (hp _ hb.isName)]
  · rw [hget, if_neg fun heq => hb.ne_base ht (Disk.name_inj heq).symm, if_pos rfl]
    rfl
  · intro e he
    rcases List.mem_append.1 he with he | he
    · rw [hget, if_neg, if_neg, h.segment e he]
      · exact fun heq => hb.ne_base (h.proper e he) (Disk.name_inj heq)
      · intro heq
        exact hfree ((h.proper e he).eq_of_name ht (Disk.name_inj heq) ▸ List.mem_map_of_mem he)
    · rw [List.mem_singleton.1 he, hget, if_pos rfl]
      rfl
  · intro x hx hno
    rw [hget, if_neg, if_neg fun heq => hx (Disk.name_inj heq)]
    · exact h.nothing x hx fun e he => hno e (List.mem_append_left _ he)
    · exact fun heq => hno (t, k) (by simp) (Disk.name_inj heq).symm
  · intro e he
    rcases List.mem_append.1 he with he | he
    · exact h.proper e he
    · rw [List.mem_singleton.1 he]
      exact ht
  · intro e he
    rcases List.mem_append.1 he with he | he
    · exact h.fits e he
    · rw [List.mem_singleton.1 he]
      exact hfit
  · rw [List.map_append, List.map_singleton, List.nodup_append]
    refine ⟨h.nodup, List.pairwise_singleton .., fun a ha b hb' hab => hfree ?_⟩
    have hbt : b = t := List.mem_singleton.1 hb'
    rw [← hbt, ← hab]
    exact ha

/-- The active file can be set aside just if the new name is not too long. -/
theorem Holds.perform_rename (now : Int) {t : SegmentFile} (ht : log.Proper t)
    (hfree : t ∉ s.segments.map Prod.fst) (hk : s.active = some k) :
    (log.Fits d₀ here t ∧ ∃ d',
      Disk.perform now d (.rename log.path (log.pathOf t)) = (.ok (), d') ∧
        log.Holds d₀ here base d' ⟨none, s.segments ++ [(t, k)]⟩) ∨
      (¬ log.Fits d₀ here t ∧ ∃ fault,
        Disk.perform now d (.rename log.path (log.pathOf t)) = (.error fault, d)) := by
  rcases hb.fits_or_error ht with hfit | herror
  · obtain ⟨d', hrename, h'⟩ := h.rename hb ht hfit hfree hk
    exact .inl ⟨hfit, d', congrArg (Disk.changed d) hrename, h'⟩
  · obtain ⟨fault, hfault⟩ := herror d h.outside
    have hrename := Disk.rename_of_resolve_error (h.reaches hb) (h.get?_active hk) hfault
    refine .inr ⟨fun hfit => ?_, fault, congrArg (Disk.changed d) hrename⟩
    rw [(hfit d h.outside).resolve] at hfault
    cases hfault

/-- A segment is removed. -/
theorem Holds.remove {e : SegmentFile × Kept} (he : e ∈ s.segments) :
    ∃ d', d.remove (log.pathOf e.1) = .ok d' ∧
      log.Holds d₀ here base d' { s with segments := s.segments.filter fun x => x.1 ≠ e.1 } := by
  have hpe := h.proper e he
  have hget : ∀ p, (⟨d.nodes.erase (here ++ [e.1.name])⟩ : Disk).nodes.get? p
      = if p = here ++ [e.1.name] then none else d.nodes.get? p := Table.get?_erase _ _
  have hmem : ∀ x ∈ s.segments.filter (fun x => x.1 ≠ e.1), x ∈ s.segments ∧ x.1 ≠ e.1 := by
    intro x hx
    simpa using List.mem_filter.1 hx
  refine ⟨_, (h.reaches_segment he).remove_file (h.segment e he), ?_, ?_, ?_, ?_, ?_, ?_, ?_⟩
  · refine h.outside.trans (.of_get? fun p hp => ?_)
    rw [hget, if_neg (hp _ (hb.isName_of_proper hpe))]
  · rw [hget, if_neg fun heq => hb.ne_base hpe (Disk.name_inj heq).symm]
    exact h.active
  · intro x hx
    obtain ⟨hx, hne⟩ := hmem x hx
    rw [hget, if_neg fun heq => hne ((h.proper x hx).eq_of_name hpe (Disk.name_inj heq)), h.segment x hx]
  · intro x hx hno
    rw [hget]
    split
    · rfl
    · next hname =>
      refine h.nothing x hx fun y hy hyx => ?_
      refine hno y (List.mem_filter.2 ⟨hy, ?_⟩) hyx
      simpa using fun heq : y.1 = e.1 => hname (by rw [← hyx, heq])
  · exact fun x hx => h.proper x (hmem x hx).1
  · exact fun x hx => h.fits x (hmem x hx).1
  · exact h.nodup.sublist (List.filter_sublist.map Prod.fst)

/-! ## Accesses to the active file -/

variable (now : Int)

theorem Holds.perform_stat_none (hk : s.active = none) :
    Disk.perform now d (.stat log.path) = (.error .notFound, d) :=
  congrArg (·, d) ((h.reaches hb).stat_none (h.get?_none hk))

theorem Holds.perform_stat (hk : s.active = some k) :
    Disk.perform now d (.stat log.path) = (.ok ⟨k.content.length, k.modified⟩, d) :=
  congrArg (·, d) ((h.reaches hb).stat_file (h.get?_active hk))

theorem Holds.perform_read_none (hk : s.active = none) :
    Disk.perform now d (.read log.path) = (.error .notFound, d) :=
  congrArg (·, d) ((h.reaches hb).read_none (h.get?_none hk))

theorem Holds.perform_read (hk : s.active = some k) :
    Disk.perform now d (.read log.path) = (.ok k.content, d) :=
  congrArg (·, d) ((h.reaches hb).read_file (h.get?_active hk))

theorem Holds.perform_sync (hk : s.active = some k) :
    Disk.perform now d (.sync log.path) = (.ok (), d) :=
  congrArg (·, d) ((h.reaches hb).sync_file (h.get?_active hk))

/-- If there is no active file, an empty one is made. -/
theorem Holds.openAppend_none (hk : s.active = none) :
    ∃ d', d.openAppend now log.path = .ok (0, d') ∧
      log.Holds d₀ here base d' { s with active := some ⟨[], now⟩ } :=
  ⟨_, (h.reaches hb).openAppend_none (h.get?_none hk), h.put_active hb ⟨[], now⟩⟩

theorem Holds.openAppend_some (hk : s.active = some k) :
    d.openAppend now log.path = .ok (k.content.length, d) :=
  (h.reaches hb).openAppend_file (h.get?_active hk)

theorem Holds.append (hk : s.active = some k) (bs : List UInt8) :
    ∃ d', d.append now log.path bs = .ok d' ∧
      log.Holds d₀ here base d' { s with active := some ⟨k.content ++ bs, now⟩ } :=
  ⟨_, (h.reaches hb).append_file (h.get?_active hk) bs, h.put_active hb ⟨k.content ++ bs, now⟩⟩

theorem Holds.truncate (hk : s.active = some k) (n : Nat) :
    ∃ d', d.truncate now log.path n = .ok d' ∧
      log.Holds d₀ here base d' { s with active := some ⟨k.content.take n, now⟩ } :=
  ⟨_, (h.reaches hb).truncate_file (h.get?_active hk) n, h.put_active hb ⟨k.content.take n, now⟩⟩

end Holds

end Reachability.Log
