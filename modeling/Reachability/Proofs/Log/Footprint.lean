import Reachability.Proofs.Disk.Grounded
import Reachability.Proofs.Log.Attempt

set_option autoImplicit false

/-! # What a log touches

A disk may hold anything beside a log. Setting aside moves the active file to the free place of a
segment (`Moves`) and then removes segments that have been kept long enough (`Prunes`); all else
that a log does is to write to its active file (`Disk.Writes`). So an operation leaves everything as
it was but the active file and segments, and no segment is ever changed: it may be new, it may be
gone after its time, or it stays (`Footprint`). Almost every access may fail on the way. -/

namespace Reachability.Log

open Disk (Fault Grounded Node Place Reaches Request SameDirectories Tried Writes)
open Disk.Path (IsName)
open Disk.Program (Fares Only)

/-! ## The places of segments -/

/-- The place of a segment: in the directory of the log, under a name that is read as the name of a
    segment. -/
def SegmentAt (log : Log) (d : Disk) (p : Place) : Prop :=
  ∃ here x, d.resolve log.directory = .ok here ∧ p = here ++ [x] ∧
    (log.family.key? x.toList).isSome = true

/-- The path of a log leads to a file, or there is nothing. -/
def LeadsToFile (log : Log) (d : Disk) : Prop :=
  ∀ p n, d.find log.path = .ok (p, n) → ∃ content t, n = .file content t

theorem directory_ne_nil (log : Log) : log.directory ≠ [] := by
  unfold directory
  split
  · exact List.cons_ne_nil _ _
  · next hne => exact hne

section Places

variable {log : Log} {d d' : Disk} {p : Place}

theorem SegmentAt.ordinary (h : log.SegmentAt d p) : Disk.Ordinary p := by
  obtain ⟨here, x, -, rfl, hkey⟩ := h
  exact Disk.ordinary_of_dash (SegmentFamily.dash_of_key? hkey)

theorem SegmentAt.same (hs : SameDirectories d d') (h : log.SegmentAt d p) :
    log.SegmentAt d' p := by
  obtain ⟨here, x, hhere, hp, hkey⟩ := h
  exact ⟨here, x, hs.resolve_eq_ok hhere, hp, hkey⟩

/-- The active file is in the directory of the log, under the name that its segments share. -/
theorem base_of_reaches (h : Reaches d log.path p) : ∃ here base, p = here ++ [base] ∧ IsName base ∧
    d.resolve log.directory = .ok here ∧ log.family.stem ++ log.family.ending = base.toList := by
  obtain ⟨here, base, hg, hp, hbase, -⟩ := h.parent
  obtain ⟨hne, hsize, hw, hname⟩ := walk_directory hg h.file
  exact ⟨here, base, hp, hbase, Disk.resolve_of_walk hne hsize hw,
    SegmentFamily.ofPath_append hname⟩

/-- The active file is not at the place of a segment. -/
theorem not_segmentAt_of_reaches (h : Reaches d log.path p) : ¬ log.SegmentAt d p := by
  rintro ⟨here, x, -, hp, hkey⟩
  obtain ⟨here', base, hp', -, -, hbase⟩ := base_of_reaches h
  obtain ⟨-, hx⟩ := List.append_inj' (hp.symm.trans hp') rfl
  rw [List.singleton_inj.1 hx, ← hbase, log.family.key?_active] at hkey
  cases hkey

theorem LeadsToFile.same (h : log.LeadsToFile d) (g : Grounded d') (hs : SameDirectories d d') :
    log.LeadsToFile d' := by
  intro p n hfind
  obtain ⟨hresolve, hnode, hfile⟩ := Disk.find_eq_ok hfind
  have hbefore := hs.resolve_iff.1 hresolve
  cases n with
  | file content t => exact ⟨content, t, rfl⟩
  | directory t => exact h p _ (Disk.find_directory hbefore ((hs p t).1 hnode))
  | device k => exact h p _ (Disk.find_eq hbefore (g.device hnode d) (hfile.resolve_left nofun))

end Places

/-! ## Removing old segments -/

/-- Whether a node is left where it is when segments are removed. -/
def leaves (log : Log) (seconds : Int) (n : Node) : Bool :=
  log.retention == .zero || !log.isExpired seconds n.stat.modified

/-- A segment has been kept long enough. -/
def Expired (log : Log) (seconds : Int) (d : Disk) (p : Place) : Prop :=
  log.SegmentAt d p ∧ ∃ content t, d.node? p = some (.file content t) ∧
    log.leaves seconds (.file content t) = false

/-- Some segments have been removed that had been kept long enough, and nothing else has changed. -/
structure Prunes (log : Log) (seconds : Int) (d d' : Disk) : Prop where
  grounded : Grounded d'
  directories : SameDirectories d d'
  places : ∀ p, d'.node? p = d.node? p ∨ log.Expired seconds d p ∧ d'.node? p = none

/-- No segment is left that has been kept long enough. -/
def Swept (log : Log) (seconds : Int) (d : Disk) : Prop :=
  ∀ p n, log.SegmentAt d p → d.node? p = some n → log.leaves seconds n = true

/-- Neither a directory fails to be listed nor a file to be removed, unless the disk refuses it. So
    nothing is said to be missing that is there. -/
def Sure (P : Disk → Request → Prop) : Prop :=
  ∀ d path, ¬ P d (.list path) ∧ ¬ P d (.remove path)

section Prune

variable {log : Log} {d d' d'' : Disk} {seconds now : Int} {P : Disk → Request → Prop}
  {gone : List (List Char)}

theorem Prunes.refl (log : Log) (seconds : Int) (g : Grounded d) : log.Prunes seconds d d :=
  ⟨g, .refl d, fun _ => .inl rfl⟩

theorem Prunes.trans (h : log.Prunes seconds d d') (h' : log.Prunes seconds d' d'') :
    log.Prunes seconds d d'' where
  grounded := h'.grounded
  directories := h.directories.trans h'.directories
  places p := by
    rcases h'.places p with hsame' | ⟨⟨hsegment, content, t, hn, hold⟩, hgone⟩
    · rw [hsame']
      exact h.places p
    · rcases h.places p with hsame | ⟨-, hnone⟩
      · exact .inr ⟨⟨hsegment.same h.directories.symm, content, t, hsame ▸ hn, hold⟩, hgone⟩
      · rw [hnone] at hn
        cases hn

/-- What is still there was there before. -/
theorem Prunes.node?_eq (h : log.Prunes seconds d d') {p : Place} {n : Node}
    (hn : d'.node? p = some n) : d.node? p = some n := by
  rcases h.places p with hsame | ⟨-, hnone⟩
  · rw [← hsame, hn]
  · rw [hnone] at hn
    cases hn

/-- If no old segment is left, the others are exactly those that are there. -/
theorem Prunes.node?_of_swept (h : log.Prunes seconds d d') (hs : log.Swept seconds d')
    {p : Place} (hp : log.SegmentAt d p) :
    d'.node? p = (d.node? p).filter (log.leaves seconds) := by
  rcases h.places p with hsame | ⟨⟨-, content, t, hn, hold⟩, hgone⟩
  · cases hn : d.node? p with
    | none => rw [hsame, hn, Option.filter_none]
    | some n =>
        have hleft := hsame.trans hn
        rw [hleft, Option.filter_some_pos (hs p n (hp.same h.directories) hleft)]
  · rw [hgone, hn, Option.filter_some_neg (by simp [hold])]

/-- A segment as the log lists it. -/
structure Listed (log : Log) (s : SegmentFile) : Prop where
  name : IsName s.name
  key : (log.family.key? s.name.toList).isSome = true

theorem Listed.segmentAt {s : SegmentFile} (hs : log.Listed s) {p : Place}
    (h : d.resolve (log.pathOf s) = .ok p) : log.SegmentAt d p ∧ Reaches d (log.pathOf s) p := by
  obtain ⟨here, hhere, rfl, hg⟩ := Disk.resolve_join (directory_ne_nil log) hs.name h
  have hsegment : log.SegmentAt d (here ++ [s.name]) := ⟨here, s.name, hhere, rfl, hs.key⟩
  exact ⟨hsegment, ⟨here, s.name, hg⟩, h, Disk.wantsDirectory_join log.directory hs.name,
    hsegment.ordinary⟩

/-- An old segment that is removed is gone. -/
theorem Listed.prunes_of_remove (g : Grounded d) {s : SegmentFile} (hs : log.Listed s) {p : Place}
    {n : Node} (hresolve : d.resolve (log.pathOf s) = .ok p) (hn : d.node? p = some n)
    (hold : log.leaves seconds n = false) (hremove : d.remove (log.pathOf s) = .ok d') :
    log.Prunes seconds d d' ∧ d'.node? p = none := by
  obtain ⟨hsegment, hreaches⟩ := hs.segmentAt hresolve
  obtain ⟨⟨content, t, hfile⟩, hgone, halters⟩ := hreaches.alters_remove g hremove
  obtain rfl := Option.some.inj (hn.symm.trans hfile)
  refine ⟨⟨halters.grounded g, halters.sameDirectories, fun q => ?_⟩, hgone⟩
  by_cases hq : q = p
  · rw [hq]
    exact .inr ⟨⟨hsegment, content, t, hn, hold⟩, hgone⟩
  · exact .inl (halters.others q hq)

/-- An old segment is removed or it stays; if that does not fail it is gone. -/
theorem fares_remove (g : Grounded d) {s : SegmentFile} (hs : log.Listed s) {p : Place} {n : Node}
    (hresolve : d.resolve (log.pathOf s) = .ok p) (hn : d.node? p = some n)
    (hold : log.leaves seconds n = false) {r : Except StoreError Unit}
    (hf : Fares P now (discard (Action.accessIfThere (.remove (log.pathOf s))) :
      Action Unit).run d gone r d') :
    log.Prunes seconds d d' ∧ (r = .ok () → Sure P → d'.node? p = none) := by
  rw [Action.discard_eq] at hf
  rcases Action.fares_bind hf with ⟨answer, d₁, first, rest, -, haccess, hdone⟩ | ⟨e, rfl, haccess⟩
  · cases hdone
    cases answer with
    | some b =>
        rcases Action.fares_accessIfThere haccess with ⟨b', -, htried⟩ | ⟨_, hnone | ⟨e, he⟩, -⟩
        · obtain ⟨hperform, -⟩ := htried.ok
          cases hremove : d.remove (log.pathOf s) with
          | error f =>
              rw [Disk.perform, hremove] at hperform
              cases hperform
          | ok d₂ =>
              rw [Disk.perform, hremove] at hperform
              cases hperform
              obtain ⟨hprunes, hgone⟩ := hs.prunes_of_remove g hresolve hn hold hremove
              exact ⟨hprunes, fun _ _ => hgone⟩
        · cases hnone
        · cases he
    | none =>
        have htried := Action.fares_accessIfThere_none haccess
        obtain ⟨-, bs, hpart⟩ := htried.error
        cases hpart
        -- What is there is not said to be missing.
        refine ⟨.refl log seconds g, fun _ hsure => ?_⟩
        obtain ⟨hperform, -⟩ := htried.of_not (hsure d _).2
        have hfind := Disk.find_eq hresolve hn (hs.segmentAt hresolve).2.file
        simp only [Disk.perform, Disk.remove, hfind, bind, Except.bind] at hperform
        cases n <;> cases hperform
  · rcases Action.fares_accessIfThere haccess with ⟨b, hb, -⟩ | ⟨fault, -, htried⟩
    · cases hb
    · obtain ⟨-, bs, hpart⟩ := htried.error
      cases hpart
      exact ⟨.refl log seconds g, fun hr => by cases hr⟩

theorem fares_stat {path : List Char} {b : Disk.Stat}
    (hf : Fares P now (Action.access (.stat path)).run d gone (.ok b) d') :
    d' = d ∧ ∃ p n, d.find path = .ok (p, n) ∧ b = n.stat := by
  rcases Action.fares_access hf with ⟨b', hb', htried⟩ | ⟨_, _, hb', -⟩
  · cases hb'
    obtain ⟨hperform, -⟩ := htried.ok
    obtain ⟨hstat, rfl⟩ := Prod.mk.inj hperform
    exact ⟨rfl, Disk.stat_eq_ok hstat⟩
  · cases hb'

/-- Of the listed segments the old ones are removed, up to one at which that fails. -/
theorem fares_removeExpired (g : Grounded d) (hret : log.retention ≠ .zero) {l : List SegmentFile}
    (hl : ∀ s ∈ l, log.Listed s) {r : Except StoreError Unit}
    (hf : Fares P now (log.removeExpired seconds (l.map log.pathOf)).run d gone r d') :
    log.Prunes seconds d d' ∧ (r = .ok () → Sure P →
      ∀ s ∈ l, ∃ p, d.resolve (log.pathOf s) = .ok p ∧
        ∀ n, d'.node? p = some n → log.leaves seconds n = true) := by
  -- On the segments that are still to be looked at.
  induction l generalizing d gone with
  | nil =>
      cases hf
      exact ⟨.refl log seconds g, fun _ _ s hs => absurd hs List.not_mem_nil⟩
  | cons s l ih =>
      have hs := hl s (List.mem_cons_self ..)
      have hl : ∀ t ∈ l, log.Listed t := fun t ht => hl t (List.mem_cons_of_mem _ ht)
      rw [List.map_cons, removeExpired] at hf
      rcases Action.fares_bind hf with ⟨stat, d₁, first, rest, -, hstat, hnext⟩ | ⟨e, rfl, hstat⟩
      · obtain ⟨rfl, p, n, hfind, rfl⟩ := fares_stat hstat
        obtain ⟨hresolve, hn, -⟩ := Disk.find_eq_ok hfind
        by_cases hexpired : log.isExpired seconds n.stat.modified = true
        · have hold : log.leaves seconds n = false := by simp [leaves, hret, hexpired]
          simp only [if_pos hexpired] at hnext
          rcases Action.fares_bind hnext with ⟨u, d₂, first, rest, -, hremove, hlast⟩ |
            ⟨e, rfl, hremove⟩
          · obtain ⟨hfirst, hgone⟩ := fares_remove g hs hresolve hn hold hremove
            obtain ⟨hrest, hleft⟩ := ih hfirst.grounded hl hlast
            refine ⟨hfirst.trans hrest, fun hr hsure t ht => ?_⟩
            rcases List.mem_cons.1 ht with rfl | ht
            · refine ⟨p, hresolve, fun m hm => ?_⟩
              cases (hgone rfl hsure).symm.trans (hrest.node?_eq hm)
            · obtain ⟨q, hq, hleaves⟩ := hleft hr hsure t ht
              exact ⟨q, hfirst.directories.resolve_iff.1 hq, hleaves⟩
          · exact ⟨(fares_remove g hs hresolve hn hold hremove).1, fun hr => by cases hr⟩
        · simp only [if_neg hexpired] at hnext
          obtain ⟨hrest, hleft⟩ := ih g hl hnext
          refine ⟨hrest, fun hr hsure t ht => ?_⟩
          rcases List.mem_cons.1 ht with rfl | ht
          · refine ⟨p, hresolve, fun m hm => ?_⟩
            obtain rfl := Option.some.inj (hn.symm.trans (hrest.node?_eq hm))
            simp [leaves, hexpired]
          · exact hleft hr hsure t ht
      · obtain ⟨-, rfl⟩ := hstat.of_isReading (Action.only_access trivial)
        exact ⟨.refl log seconds g, fun hr => by cases hr⟩

/-- A name that is read as that of a segment is one that a file has. -/
theorem listed_of_mem (g : Grounded d) {here : Place} {s : SegmentFile}
    (h : s ∈ SegmentFile.ofNames log.family (d.namesIn here)) : log.Listed s := by
  obtain ⟨hname, hkey⟩ := SegmentFile.mem_ofNames.1 h
  have hkey : (log.family.key? s.name.toList).isSome = true := by rw [hkey]; rfl
  have hordinary : Disk.Ordinary (here ++ [s.name]) :=
    Disk.ordinary_of_dash (SegmentFamily.dash_of_key? hkey)
  obtain ⟨n, hn⟩ := Disk.mem_namesIn.1 hname
  rw [← hordinary.node?_eq] at hn
  exact ⟨(g here s.name n hordinary hn).name, hkey⟩

/-- A segment that is there is listed in the directory of the log. -/
theorem SegmentAt.exists_name (g : Grounded d) {p : Place} {n : Node} (hp : log.SegmentAt d p)
    (hn : d.node? p = some n) : ∃ here t, d.find log.directory = .ok (here, .directory t) ∧
      ∃ s ∈ SegmentFile.ofNames log.family (d.namesIn here), p = here ++ [s.name] := by
  have hordinary := hp.ordinary
  obtain ⟨here, x, hhere, rfl, hkey⟩ := hp
  obtain ⟨t, ht⟩ := (g here x n hordinary hn).directory
  obtain ⟨key, hkey⟩ := Option.isSome_iff_exists.1 hkey
  rw [hordinary.node?_eq] at hn
  exact ⟨here, t, Disk.find_directory hhere ht, ⟨key.1, key.2, x⟩,
    SegmentFile.mem_ofNames.2 ⟨Disk.mem_namesIn.2 ⟨n, hn⟩, hkey⟩, rfl⟩

/-- All segments are listed that are there, if the directory is not said to be missing. -/
theorem fares_segments (g : Grounded d) {paths : List (List Char)}
    (hf : Fares P now log.segments.run d gone (.ok paths) d') :
    d' = d ∧ ∃ l : List SegmentFile, paths = l.map log.pathOf ∧ (∀ s ∈ l, log.Listed s) ∧
      (Sure P → ∀ p n, log.SegmentAt d p → d.node? p = some n →
        ∃ s ∈ l, ∃ here, d.resolve log.directory = .ok here ∧ p = here ++ [s.name]) := by
  obtain ⟨-, rfl⟩ := hf.of_isReading (only_segments log)
  refine ⟨rfl, ?_⟩
  rw [segments] at hf
  rcases Action.fares_bind hf with ⟨names, d₁, first, rest, -, hlist, hdone⟩ | ⟨e, he, -⟩
  · cases names with
    | some names =>
        cases hdone
        rcases Action.fares_accessIfThere hlist with ⟨b, hb, htried⟩ | ⟨_, hnone | ⟨e, he⟩, -⟩
        · cases hb
          obtain ⟨here, t, hfind, rfl⟩ := Disk.list_eq_ok (Prod.mk.inj htried.ok.1).1
          refine ⟨SegmentFile.ofNames log.family (d'.namesIn here), rfl,
            fun s hs => listed_of_mem g hs, fun _ p n hp hn => ?_⟩
          obtain ⟨here', t', hfind', s, hs, rfl⟩ := hp.exists_name g hn
          cases hfind.symm.trans hfind'
          exact ⟨s, hs, here, (Disk.find_eq_ok hfind).1, rfl⟩
        · cases hnone
        · cases he
    | none =>
        cases hdone
        refine ⟨[], rfl, fun s hs => absurd hs List.not_mem_nil, fun hsure p n hp hn => ?_⟩
        obtain ⟨here, t, hfind, -⟩ := hp.exists_name g hn
        obtain ⟨hperform, -⟩ := (Action.fares_accessIfThere_none hlist).of_not (hsure d' _).1
        rw [Disk.perform, Disk.list_eq hfind] at hperform
        cases hperform
  · cases he

/-- Old segments are removed, and if nothing fails no old one is left. -/
theorem fares_prune (g : Grounded d) {r : Except StoreError Unit}
    (hf : Fares P now (log.prune seconds).run d gone r d') :
    log.Prunes seconds d d' ∧ (r = .ok () → Sure P → log.Swept seconds d') := by
  rw [prune] at hf
  split at hf
  · next hret =>
    rcases Action.fares_bind hf with ⟨paths, d₁, first, rest, -, hlist, hremove⟩ | ⟨e, rfl, hlist⟩
    · obtain ⟨rfl, l, rfl, hl, hall⟩ := fares_segments g hlist
      obtain ⟨hprunes, hleft⟩ := fares_removeExpired g hret hl hremove
      refine ⟨hprunes, fun hr hsure p n hp hn => ?_⟩
      obtain ⟨s, hs, here, hhere, rfl⟩ := hall hsure p n (hp.same hprunes.directories.symm)
        (hprunes.node?_eq hn)
      obtain ⟨q, hq, hleaves⟩ := hleft hr hsure s hs
      obtain ⟨here', hhere', rfl, -⟩ := Disk.resolve_join (directory_ne_nil log) (hl s hs).name hq
      obtain rfl := Except.ok.inj (hhere.symm.trans hhere')
      exact hleaves n hn
    · obtain ⟨-, rfl⟩ := hlist.of_isReading (only_segments log)
      exact ⟨.refl log seconds g, fun hr => by cases hr⟩
  · next hret =>
    cases hf
    refine ⟨.refl log seconds g, fun _ _ p n _ _ => ?_⟩
    simp [leaves, not_not.1 hret]

end Prune

/-! ## Setting the active file aside -/

/-- The active file has been moved, as it was, to the place of a segment that was free. -/
structure Moves (log : Log) (a q : Place) (content : List UInt8) (t : Int) (d d' : Disk) :
    Prop where
  grounded : Grounded d'
  directories : SameDirectories d d'
  active : Reaches d log.path a
  file : d.node? a = some (.file content t)
  segment : log.SegmentAt d q
  free : d.node? q = none
  places : ∀ p, d'.node? p =
    if p = q then some (.file content t) else if p = a then none else d.node? p

/-- What comes of setting the active file aside. If the path of a new segment is told, it leads to
    where the file is. -/
inductive Rotates (log : Log) (P : Disk → Request → Prop) (moment : Moment) (d : Disk)
    (r : Except StoreError (Option (List Char))) : Disk → Prop where
  | still (hr : ∀ path, r ≠ .ok (some path)) : Rotates log P moment d r d
  | aside {a q : Place} {content : List UInt8} {t : Int} {d₁ d' : Disk}
      (hm : log.Moves a q content t d d₁) (hp : log.Prunes moment.seconds d₁ d')
      (hr : ∀ path, r = .ok (some path) →
        d.resolve path = .ok q ∧ (Sure P → log.Swept moment.seconds d')) :
      Rotates log P moment d r d'

/-- The active file has been set aside, or nothing has changed. -/
def SetsAside (log : Log) (d d' : Disk) : Prop :=
  d' = d ∨ ∃ a q content t, log.Moves a q content t d d'

section Rotate

variable {log : Log} {d d' : Disk} {moment : Moment} {P : Disk → Request → Prop}
  {gone : List (List Char)}

theorem Rotates.phases (g : Grounded d) {r : Except StoreError (Option (List Char))}
    (h : log.Rotates P moment d r d') :
    ∃ d₁, log.SetsAside d d₁ ∧ log.Prunes moment.seconds d₁ d' := by
  cases h with
  | still hr => exact ⟨d, .inl rfl, .refl log moment.seconds g⟩
  | aside hm hp hr => exact ⟨_, .inr ⟨_, _, _, _, hm⟩, hp⟩

/-- A number that was found is one of those that were tried, and its path leads to nothing. -/
theorem run_freeNumber_ok {now : Int} {date : List Char} {k tries n : Nat}
    (h : (log.freeNumber date k tries).run.run now d = (.ok n, d')) :
    n < k + tries ∧ (d.stat (log.segmentPath date n)).isOk = false := by
  induction tries generalizing k with
  | zero => cases h
  | succ tries ih =>
      rw [freeNumber, Action.run_bind_ok (Action.run_isThere now d _)] at h
      cases hthere : (d.stat (log.segmentPath date k)).isOk with
      | true =>
          rw [hthere] at h
          obtain ⟨hn, hfree⟩ := ih h
          exact ⟨by omega, hfree⟩
      | false =>
          rw [hthere] at h
          cases h
          exact ⟨by omega, hthere⟩

variable {a : Place} (ha : Reaches d log.path a) (hplain : moment.today.Plain)

include ha

theorem Listed.pathOf_ne {s : SegmentFile} (hs : log.Listed s) : log.pathOf s ≠ log.path := by
  intro heq
  have hresolve := ha.resolve
  rw [← heq] at hresolve
  exact not_segmentAt_of_reaches ha (hs.segmentAt hresolve).1

include hplain

theorem listed_segment {n : Nat} (hn : n < Text.halfWordBound) :
    log.Listed (log.family.segment moment.today n) where
  name := by
    obtain ⟨here, base, -, hbase, -, hfamily⟩ := base_of_reaches ha
    exact SegmentFamily.isName_name hbase hfamily hplain n
  key := by
    rw [(proper_segment log hplain hn).key?]
    rfl

/-- While the active file is there, the search for a free number only reads and does not fail. -/
theorem only_freeNumber_of_active {content : List UInt8} {t : Int}
    (hn : d.node? a = some (.file content t)) (hP : ∀ r, P d r → log.MayFail true d r) :
    (log.freeNumber moment.today.text 0 numberLimit).run.Only fun r => r.IsReading ∧ ¬ P d r := by
  refine only_freeNumber log fun n hlimit => ⟨trivial, fun hmay => ?_⟩
  rw [segmentPath_eq] at hmay
  rw [Nat.zero_add] at hlimit
  rcases hP _ hmay with hpath | hgone
  · exact (listed_segment ha hplain hlimit).pathOf_ne ha hpath
  · rw [Disk.stat, Disk.find_eq ha.resolve hn ha.file] at hgone
    cases hgone

omit hplain in
theorem Listed.moves_of_rename (g : Grounded d) {content : List UInt8} {t : Int}
    (hn : d.node? a = some (.file content t)) {s : SegmentFile} (hs : log.Listed s)
    (hfree : (d.stat (log.pathOf s)).isOk = false)
    (hrename : d.rename log.path (log.pathOf s) = .ok d') :
    ∃ q, log.Moves a q content t d d' ∧ d.resolve (log.pathOf s) = .ok q := by
  obtain ⟨-, -, q, hq⟩ := Disk.rename_eq_ok hrename
  obtain ⟨hsegment, hreaches⟩ := hs.segmentAt hq
  have hnone := Disk.free_of_stat hq hreaches.file hfree
  obtain ⟨hplaces, halters⟩ := g.alters_rename ha hreaches hn hnone hrename
  exact ⟨q, ⟨halters.grounded g, halters.sameDirectories, ha, hn, hsegment, hnone, hplaces⟩, hq⟩

theorem fares_moveAside (g : Grounded d) {content : List UInt8} {t : Int}
    (hn : d.node? a = some (.file content t)) (hP : ∀ r, P d r → log.MayFail true d r)
    {r : Except StoreError (Option (List Char))}
    (hf : Fares P moment.seconds (log.moveAside moment).run d gone r d') :
    log.Rotates P moment d r d' := by
  rw [moveAside] at hf
  rcases Action.fares_bind hf with ⟨m, d₁, first, rest, -, hnumber, hnext⟩ | ⟨e, rfl, hnumber⟩
  · obtain ⟨-, hrun⟩ := hnumber.run_eq (only_freeNumber_of_active ha hplain hn hP)
    obtain ⟨-, rfl⟩ := hnumber.of_isReading (only_freeNumber log fun _ _ => trivial)
    obtain ⟨hm, hfree⟩ := run_freeNumber_ok hrun
    rw [Nat.zero_add] at hm
    rw [segmentPath_eq] at hfree hnext
    have hlisted := listed_segment ha hplain hm
    rcases Action.fares_bind hnext with ⟨u, d₂, first, rest, -, hmove, hlast⟩ | ⟨e, rfl, hmove⟩
    · rcases Action.fares_access hmove with ⟨b, -, htried⟩ | ⟨_, _, hb, -⟩
      · obtain ⟨hperform, -⟩ := htried.ok
        cases hrename : d₁.rename log.path (log.pathOf (log.family.segment moment.today m)) with
        | error f =>
            rw [Disk.perform, hrename] at hperform
            cases hperform
        | ok d₃ =>
            rw [Disk.perform, hrename] at hperform
            cases hperform
            obtain ⟨q, hmoves, hq⟩ := hlisted.moves_of_rename ha g hn hfree hrename
            rcases Action.fares_bind hlast with ⟨u, d₄, first, rest, -, hprune, hdone⟩ |
              ⟨e, rfl, hprune⟩
            · cases hdone
              obtain ⟨hprunes, hswept⟩ := fares_prune hmoves.grounded hprune
              refine .aside hmoves hprunes fun path hpath => ?_
              cases hpath
              exact ⟨hq, hswept rfl⟩
            · exact .aside hmoves (fares_prune hmoves.grounded hprune).1 fun path hr => by cases hr
      · cases hb
    · rcases Action.fares_access hmove with ⟨b, hb, -⟩ | ⟨fault, _, -, htried⟩
      · cases hb
      · obtain ⟨-, bs, hpart⟩ := htried.error
        cases hpart
        exact .still fun path hr => by cases hr
  · obtain ⟨-, rfl⟩ := hnumber.of_isReading (only_freeNumber log fun _ _ => trivial)
    exact .still fun path hr => by cases hr

omit ha

variable (g : Grounded d) (hfile : log.LeadsToFile d) (hP : ∀ d r, P d r → log.MayFail true d r)

include g hfile hP

/-- Setting aside moves a file that is there, and nothing if there is none. -/
theorem fares_rotate {r : Except StoreError (Option (List Char))}
    (hf : Fares P moment.seconds (log.rotate moment).run d gone r d') :
    log.Rotates P moment d r d' := by
  rw [rotate] at hf
  rcases Action.fares_bind hf with ⟨there, d₁, first, rest, -, hthere, hlast⟩ | ⟨e, rfl, hthere⟩
  · obtain ⟨-, rfl⟩ := hthere.of_isReading (Action.only_isThere trivial)
    cases there with
    | false =>
        cases hlast
        exact .still fun path hr => by cases hr
    | true =>
        obtain ⟨answer, hanswer, htried⟩ := Action.fares_isThere hthere
        cases answer with
        | error fault => cases hanswer
        | ok b =>
            obtain ⟨p, n, hfind, -⟩ := Disk.stat_eq_ok (Prod.mk.inj htried.ok.1).1
            obtain ⟨content, t, rfl⟩ := hfile p n hfind
            exact fares_moveAside (g.reaches_of_find hfind) hplain g (Disk.find_eq_ok hfind).2.1
              (hP d₁) hlast
  · obtain ⟨-, rfl⟩ := hthere.of_isReading (Action.only_isThere trivial)
    exact .still fun path hr => by cases hr

theorem fares_rotateIfFull {r : Except StoreError Unit}
    (hf : Fares P moment.seconds (log.rotateIfFull moment).run d gone r d') :
    ∃ d₁, log.SetsAside d d₁ ∧ log.Prunes moment.seconds d₁ d' := by
  have hsame : ∃ d₁, log.SetsAside d d₁ ∧ log.Prunes moment.seconds d₁ d :=
    ⟨d, .inl rfl, .refl log moment.seconds g⟩
  rw [rotateIfFull] at hf
  rcases Action.fares_reading_bind hf (Action.only_accessIfThere trivial) with
    ⟨-, rfl⟩ | ⟨stat, -, hnext⟩
  · exact hsame
  cases stat with
  | none =>
      cases hnext
      exact hsame
  | some stat =>
      by_cases hfull : log.maxBytes ≤ stat.size
      · simp only [if_pos hfull] at hnext
        obtain ⟨y, hrotate⟩ := Action.fares_discard hnext
        exact (fares_rotate hplain g hfile hP hrotate).phases g
      · simp only [if_neg hfull] at hnext
        cases hnext
        exact hsame

end Rotate

/-! ## Writing to the active file -/

theorem only_mend (path : List Char) (c : Segment.Content) :
    (mend path c).run.Only (Request.WritesAt path) := by
  rw [mend]
  refine Action.only_bind (Action.only_access rfl) fun _ => ?_
  split
  · refine Action.only_bind (Action.only_access rfl) fun _ => ?_
    exact Action.only_bind (Action.only_access trivial) fun _ => Action.only_access trivial
  · exact Action.only_access trivial

theorem only_replay (log : Log) : log.replay.run.Only (Request.WritesAt log.path) := by
  have hreading : ∀ {α : Type} {x : Action α}, x.run.Only Request.IsReading →
      x.run.Only (Request.WritesAt log.path) := fun h => h.mono fun r hr => hr.writesAt log.path
  rw [replay]
  refine Action.only_bind (hreading (only_segments log)) fun paths => ?_
  refine Action.only_bind (hreading (only_readSegments paths)) fun old => ?_
  refine Action.only_bind (hreading (Action.only_accessIfThere trivial)) fun found => ?_
  cases found with
  | none => trivial
  | some bs =>
      refine Action.only_bind (only_parseFile log.path bs) fun c => ?_
      split
      · exact Action.only_bind (only_mend log.path c) fun _ => trivial
      · trivial

/-- An entry is written to the active file, and cut off again there. -/
theorem only_tryWrite (path : List Char) (line : List UInt8) (length : Nat) :
    (tryCatch (writeLine path line) fun error => do
      discard ((Disk.Program.ask (.truncate path length)).bind fun a => .done (.ok a) : Action _)
      throw error : Action Unit).run.Only (Request.WritesAt path) := by
  rw [Action.run_tryCatch_eq]
  refine Disk.Program.Only.bind ?_ fun answer => ?_
  · refine Action.only_bind (Action.only_access rfl) fun _ => ?_
    exact Action.only_bind (Action.only_access trivial) fun _ => Action.only_access trivial
  · cases answer with
    | ok u => trivial
    | error e => exact ⟨rfl, fun _ => trivial⟩

/-! ## Operations -/

/-- What becomes of the place of a segment: it stays as it is; or a segment goes after its time; or
    the active file comes, as it was, to where nothing was. -/
inductive Fate (log : Log) (seconds : Int) (d d' : Disk) (p : Place) : Prop where
  | stays (h : d'.node? p = d.node? p)
  | goes (h : log.Expired seconds d p) (hgone : d'.node? p = none)
  | comes {a : Place} {content : List UInt8} {t : Int} (ha : Reaches d log.path a)
      (hn : d.node? a = some (.file content t)) (hfree : d.node? p = none)
      (h : d'.node? p = some (.file content t))

/-- What an operation of a log may do to a disk. -/
structure Footprint (log : Log) (seconds : Int) (d d' : Disk) : Prop where
  grounded : Grounded d'
  directories : SameDirectories d d'
  others : ∀ p, ¬ Reaches d log.path p → ¬ log.SegmentAt d p → d'.node? p = d.node? p
  segments : ∀ p, log.SegmentAt d p → log.Fate seconds d d' p

section Operations

variable {log : Log} {d d₁ d₂ d' : Disk} {seconds : Int} {moment : Moment}
  {P : Disk → Request → Prop} {gone : List (List Char)}

theorem SetsAside.directories (h : log.SetsAside d d') : SameDirectories d d' := by
  rcases h with rfl | ⟨a, q, content, t, hm⟩
  · exact .refl _
  · exact hm.directories

/-- Setting aside leaves a place as it is, or it brings the active file there. -/
theorem SetsAside.places (h : log.SetsAside d d') {p : Place} (hp : ¬ Reaches d log.path p) :
    d'.node? p = d.node? p ∨ log.SegmentAt d p ∧ d.node? p = none ∧ ∃ a content t,
      Reaches d log.path a ∧ d.node? a = some (.file content t) ∧
        d'.node? p = some (.file content t) := by
  rcases h with rfl | ⟨a, q, content, t, hm⟩
  · exact .inl rfl
  · rw [hm.places]
    by_cases hpq : p = q
    · rw [if_pos hpq, hpq]
      exact .inr ⟨hm.segment, hm.free, a, content, t, hm.active, hm.file, rfl⟩
    · rw [if_neg hpq, if_neg]
      · exact .inl rfl
      · rintro rfl
        exact hp hm.active

/-- The place of a segment after the active file has been set aside and old segments have been
    removed. -/
theorem fate_of_places (ha : log.SetsAside d d₁) (hp : log.Prunes seconds d₁ d₂) {p : Place}
    (hplace : log.SegmentAt d p) (hlast : d'.node? p = d₂.node? p) : log.Fate seconds d d' p := by
  rcases ha.places fun h => not_segmentAt_of_reaches h hplace with
    hsame | ⟨-, hfree, a, content, t, hactive, hfile, hnew⟩
  · rcases hp.places p with hstays | ⟨⟨-, content, t, hn, hold⟩, hgone⟩
    · exact .stays (hlast.trans (hstays.trans hsame))
    · exact .goes ⟨hplace, content, t, hsame ▸ hn, hold⟩ (hlast.trans hgone)
  · rcases hp.places p with hstays | ⟨-, hgone⟩
    · exact .comes hactive hfile hfree (hlast.trans (hstays.trans hnew))
    -- What has been set aside may already be old.
    · exact .stays (hlast.trans (hgone.trans hfree.symm))

/-- The active file is set aside, old segments are removed, and then it is written to. -/
theorem footprint_of_phases (ha : log.SetsAside d d₁) (hp : log.Prunes seconds d₁ d₂)
    (hw : Writes log.path d₂ d') : log.Footprint seconds d d' := by
  have hsame := ha.directories.trans hp.directories
  have hlast : ∀ p, ¬ Reaches d log.path p → d'.node? p = d₂.node? p := fun p hactive =>
    hw.others p fun h => hactive (hsame.symm.reaches h)
  refine ⟨hw.grounded, hsame.trans hw.directories, fun p hactive hsegment => ?_,
    fun p hplace => ?_⟩
  · have hnot : ¬ log.SegmentAt d₁ p := fun h => hsegment (h.same ha.directories.symm)
    rw [hlast p hactive, (hp.places p).resolve_right fun h => hnot h.1.1]
    exact (ha.places hactive).resolve_right fun h => hsegment h.1
  · exact fate_of_places ha hp hplace (hlast p fun h => not_segmentAt_of_reaches h hplace)

/-- The active file has been moved, as it was, to where a path leads and nothing was; and of the
    segments, this one among them, exactly those are gone that have been kept long enough. -/
def RotatedTo (log : Log) (seconds : Int) (path : List Char) (d d' : Disk) : Prop :=
  ∃ a q content t, Reaches d log.path a ∧ d.node? a = some (.file content t) ∧
    d.resolve path = .ok q ∧ log.SegmentAt d q ∧ d.node? q = none ∧ d'.node? a = none ∧
    ∀ p, log.SegmentAt d p → d'.node? p =
      (if p = q then some (.file content t) else d.node? p).filter (log.leaves seconds)

/-- A rotation that tells a path has not failed, and then no old segment is left. -/
theorem Rotates.rotatedTo {path : List Char} (h : log.Rotates P moment d (.ok (some path)) d')
    (hsure : Sure P) : log.RotatedTo moment.seconds path d d' := by
  cases h with
  | still hr => exact absurd rfl (hr path)
  | @aside a q content t d₁ _ hm hp hr =>
      obtain ⟨hq, hswept⟩ := hr path rfl
      have haq : a ≠ q := fun heq => not_segmentAt_of_reaches hm.active (heq ▸ hm.segment)
      refine ⟨a, q, content, t, hm.active, hm.file, hq, hm.segment, hm.free, ?_, fun p hplace => ?_⟩
      · have hleft : d₁.node? a = none := by rw [hm.places, if_neg haq, if_pos rfl]
        rcases hp.places a with hsame | ⟨-, hgone⟩
        · rw [hsame, hleft]
        · exact hgone
      · have hpa : p ≠ a := by
          rintro rfl
          exact not_segmentAt_of_reaches hm.active hplace
        rw [hp.node?_of_swept (hswept hsure) (hplace.same hm.directories), hm.places, if_neg hpa]

theorem Rotates.footprint (g : Grounded d) {r : Except StoreError (Option (List Char))}
    (h : log.Rotates P moment d r d') : log.Footprint moment.seconds d d' := by
  obtain ⟨d₁, ha, hp⟩ := h.phases g
  exact footprint_of_phases ha hp (.refl log.path hp.grounded)

/-- A replay writes to the active file only. -/
theorem fares_replay_writes (g : Grounded d) {now : Int} {r : Except StoreError Replay}
    (hf : Fares P now log.replay.run d gone r d') : Writes log.path d d' :=
  hf.writes g (only_replay log)

theorem fares_append_footprint (g : Grounded d) (hfile : log.LeadsToFile d)
    (hP : ∀ d r, P d r → log.MayFail true d r) (hplain : moment.today.Plain) {e : Entry}
    {r : Except StoreError Unit}
    (hf : Fares P moment.seconds (log.append moment e).run d gone r d') :
    log.Footprint moment.seconds d d' := by
  rw [Log.append] at hf
  rcases Action.fares_bind hf with ⟨u, d₂, first, rest, -, hrotate, hnext⟩ | ⟨err, -, hrotate⟩
  · obtain ⟨d₁, ha, hp⟩ := fares_rotateIfFull hplain g hfile hP hrotate
    refine footprint_of_phases ha hp (hnext.writes hp.grounded ?_)
    exact Action.only_bind (Action.only_access rfl) fun length => only_tryWrite log.path _ length
  · obtain ⟨d₁, ha, hp⟩ := fares_rotateIfFull hplain g hfile hP hrotate
    exact footprint_of_phases ha hp (.refl log.path hp.grounded)

end Operations

end Reachability.Log
