import Reachability.Proofs.Disk.Attempt
import Reachability.Proofs.Log.Damage
import Reachability.Proofs.Log.Ledger

set_option autoImplicit false

/-! # Attempts on a log

What an append or a replay makes of a shelf if almost every access may fail (`MayFail`): the active
file is set aside or not (`Shifts`), segments that have been kept long enough are removed up to the
one at which the removal fails (`Sheds`), and something is added to the active file or not
(`Grows`). The removed paths are those of the lost segments. -/

namespace Reachability.Log

open Disk (Fault Place Request Tried)
open Disk.Program (Fares Only)

/-! ## Actions -/

namespace Action

variable {α β : Type} {P : Disk → Request → Prop} {x : Action α} {f : α → Action β} {now : Int}
  {d d' : Disk} {gone : List (List Char)}

theorem fares_bind {r : Except StoreError β} (h : Fares P now (x >>= f).run d gone r d') :
    (∃ a d₁ first rest, gone = first ++ rest ∧ Fares P now x.run d first (.ok a) d₁ ∧
      Fares P now (f a).run d₁ rest r d') ∨
      ∃ e, r = .error e ∧ Fares P now x.run d gone (.error e) d' := by
  rw [run_bind_eq, Disk.Program.fares_bind] at h
  obtain ⟨answer, d₁, first, rest, rfl, hx, hf⟩ := h
  cases answer with
  | ok a => exact .inl ⟨a, d₁, first, rest, rfl, hx, hf⟩
  | error e =>
      cases hf
      rw [List.append_nil]
      exact .inr ⟨e, rfl, hx⟩

/-- Reading changes nothing, whether it fails or not. -/
theorem fares_reading_bind {r : Except StoreError β} (h : Fares P now (x >>= f).run d gone r d')
    (hx : x.run.Only Request.IsReading) :
    gone = [] ∧ d' = d ∨
      ∃ a, Fares P now x.run d [] (.ok a) d ∧ Fares P now (f a).run d gone r d' := by
  rcases fares_bind h with ⟨a, d₁, first, rest, rfl, hfirst, hrest⟩ | ⟨e, -, hfirst⟩
  · obtain ⟨rfl, rfl⟩ := hfirst.of_isReading hx
    exact .inr ⟨a, hfirst, hrest⟩
  · exact .inl (hfirst.of_isReading hx)

theorem fares_discard {r : Except StoreError Unit} (h : Fares P now (discard x).run d gone r d') :
    ∃ y, Fares P now x.run d gone y d' := by
  rw [discard_eq] at h
  rcases fares_bind h with ⟨a, d₁, first, rest, rfl, hx, hdone⟩ | ⟨e, -, hx⟩
  · cases hdone
    rw [List.append_nil]
    exact ⟨_, hx⟩
  · exact ⟨_, hx⟩

theorem fares_access {r : Request} {result : Except StoreError r.Result}
    (h : Fares P now (access r).run d gone result d') :
    (∃ b, result = .ok b ∧ Tried P now d r (.ok b) gone d') ∨
      ∃ fault e, result = .error e ∧ Tried P now d r (.error fault) gone d' := by
  obtain ⟨answer, d₁, first, rest, rfl, htried, h⟩ := Disk.Program.fares_access h
  cases answer with
  | ok b =>
      cases h
      rw [List.append_nil]
      exact .inl ⟨b, rfl, htried⟩
  | error fault =>
      cases h
      rw [List.append_nil]
      exact .inr ⟨fault, _, rfl, htried⟩

theorem fares_accessIfThere {r : Request} {result : Except StoreError (Option r.Result)}
    (h : Fares P now (accessIfThere r).run d gone result d') :
    (∃ b, result = .ok (some b) ∧ Tried P now d r (.ok b) gone d') ∨
      ∃ fault, (result = .ok none ∨ ∃ e, result = .error e) ∧
        Tried P now d r (.error fault) gone d' := by
  obtain ⟨answer, d₁, first, rest, rfl, htried, h⟩ := Disk.Program.fares_access h
  simp only [Disk.Program.bind] at h
  split at h
  · cases h
    rw [List.append_nil]
    exact .inl ⟨_, rfl, htried⟩
  · cases h
    rw [List.append_nil]
    exact .inr ⟨_, .inl rfl, htried⟩
  · cases h
    rw [List.append_nil]
    exact .inr ⟨_, .inr ⟨_, rfl⟩, htried⟩

/-- Nothing is accessed only if there is nothing. -/
theorem fares_accessIfThere_none {r : Request}
    (h : Fares P now (accessIfThere r).run d gone (.ok none) d') :
    Tried P now d r (.error .notFound) gone d' := by
  obtain ⟨answer, d₁, first, rest, rfl, htried, h⟩ := Disk.Program.fares_access h
  simp only [Disk.Program.bind] at h
  split at h
  · cases h
  · cases h
    rw [List.append_nil]
    exact htried
  · cases h

theorem fares_isThere {path : List Char} {r : Except StoreError Bool}
    (h : Fares P now (isThere path).run d gone r d') :
    ∃ answer : Except Fault Disk.Stat, r = .ok answer.isOk ∧
      Tried P now d (.stat path) answer gone d' := by
  obtain ⟨answer, d₁, first, rest, rfl, htried, h⟩ := Disk.Program.fares_access h
  cases h
  rw [List.append_nil]
  exact ⟨_, rfl, htried⟩

end Action

/-! ## What may fail -/

/-- Which accesses may fail on a disk: all but looks at names other than that of the active file
    while this is there, and those that cut a file only if `cut` is set. Such a look is part of the
    search for a free number, where a name that cannot be looked at is taken for a free one. -/
def MayFail (log : Log) (cut : Bool) (d : Disk) : Request → Prop
  | .stat path => path = log.path ∨ (d.stat log.path).isOk = false
  | .truncate .. => cut = true
  | _ => True

/-- The paths of segments. -/
def pathsOf (log : Log) (lost : List (SegmentFile × Kept)) : List (List Char) :=
  lost.map fun e => log.pathOf e.1

/-! ## Removing old segments -/

/-- Some segments have been lost from a shelf, each of which had been kept long enough. -/
structure Sheds (log : Log) (now : Int) (s : Shelf) (lost : List (SegmentFile × Kept))
    (s' : Shelf) : Prop where
  active : s'.active = s.active
  perm : s.segments.Perm (s'.segments ++ lost)
  sublist : s'.segments.Sublist s.segments
  expired : ∀ e ∈ lost, log.keeps now e.2 = false

theorem Sheds.refl (log : Log) (now : Int) (s : Shelf) : log.Sheds now s [] s where
  active := rfl
  perm := by rw [List.append_nil]
  sublist := .refl _
  expired := nofun

theorem Sheds.eq {log : Log} {now : Int} {s s' : Shelf} (h : log.Sheds now s [] s') : s' = s := by
  have hlength := h.perm.length_eq
  rw [List.append_nil] at hlength
  have hsegments := h.sublist.eq_of_length hlength.symm
  obtain ⟨active, segments⟩ := s
  obtain ⟨active', segments'⟩ := s'
  obtain rfl : active' = active := h.active
  obtain rfl : segments' = segments := hsegments
  rfl

section Holds

variable {log : Log} {d₀ d d' : Disk} {here : Place} {base : String} {s : Shelf} {now : Int}
  {P : Disk → Request → Prop} {gone : List (List Char)} (hb : log.Begins d₀ here base)
  (h : log.Holds d₀ here base d s)

include h

/-- The first segment to be lost is no longer there when the others are. -/
theorem Holds.sheds_cons {e : SegmentFile × Kept} {lost : List (SegmentFile × Kept)} {s' : Shelf}
    (he : e ∈ s.segments) (hold : log.keeps now e.2 = false)
    (hs : log.Sheds now { s with segments := s.segments.filter fun x => x.1 ≠ e.1 } lost s') :
    log.Sheds now s (e :: lost) s' where
  active := hs.active
  perm := by
    have hnodup : s.segments.Nodup := List.Nodup.of_map _ h.nodup
    have hsplit := List.filter_append_perm (fun x => decide (x.1 ≠ e.1)) s.segments
    have hone : (s.segments.filter fun x => !decide (x.1 ≠ e.1)).Perm [e] := by
      refine (List.perm_ext_iff_of_nodup (hnodup.filter _) (List.nodup_singleton e)).2 fun x => ?_
      rw [List.mem_filter, List.mem_singleton]
      refine ⟨fun ⟨hx, hxe⟩ => h.eq_of_fst_eq hx he (by simpa using hxe), ?_⟩
      rintro rfl
      exact ⟨he, by simp⟩
    calc s.segments.Perm _ := hsplit.symm
      List.Perm _ (s.segments.filter (fun x => x.1 ≠ e.1) ++ [e]) := hone.append_left _
      List.Perm _ (s'.segments ++ lost ++ [e]) := hs.perm.append_right [e]
      List.Perm _ (s'.segments ++ (lost ++ [e])) := .of_eq (List.append_assoc ..)
      List.Perm _ (s'.segments ++ e :: lost) := (List.perm_append_singleton e lost).append_left _
  sublist := hs.sublist.trans List.filter_sublist
  expired x hx := by
    rcases List.mem_cons.1 hx with rfl | hx
    · exact hold
    · exact hs.expired x hx

theorem Holds.modified_of_fares {e : SegmentFile × Kept} (he : e ∈ s.segments) {b : Disk.Stat}
    (hf : Fares P now (Action.access (.stat (log.pathOf e.1))).run d gone (.ok b) d') :
    b.modified = e.2.modified := by
  rcases Action.fares_access hf with ⟨b', hb', htried⟩ | ⟨_, _, hb', -⟩
  · cases hb'
    have hstat := congrArg Prod.fst htried.ok.1
    rw [Disk.perform, (h.reaches_segment he).stat_file (h.segment e he)] at hstat
    rw [← Except.ok.inj hstat]
  · cases hb'

include hb

/-- A segment is removed or it stays. -/
theorem Holds.fares_remove {e : SegmentFile × Kept} (he : e ∈ s.segments)
    {r : Except StoreError Unit}
    (hf : Fares P now (discard (Action.accessIfThere (.remove (log.pathOf e.1))) :
      Action Unit).run d gone r d') :
    gone = log.pathsOf [e] ∧ log.Holds d₀ here base d'
        { s with segments := s.segments.filter fun x => x.1 ≠ e.1 } ∨
      gone = [] ∧ d' = d := by
  obtain ⟨y, hf⟩ := Action.fares_discard hf
  rcases Action.fares_accessIfThere hf with ⟨b, -, htried⟩ | ⟨fault, -, htried⟩
  · left
    obtain ⟨hperform, rfl⟩ := htried.ok
    obtain ⟨d₁, hremove, h₁⟩ := h.remove hb he
    rw [Disk.perform, hremove] at hperform
    cases hperform
    exact ⟨rfl, h₁⟩
  · right
    obtain ⟨rfl, bs, hpart⟩ := htried.error
    cases hpart
    exact ⟨rfl, rfl⟩

theorem Holds.fares_removeExpired (hret : log.retention ≠ .zero) {seconds : Int}
    {l : List (SegmentFile × Kept)} (hl : ∀ e ∈ l, e ∈ s.segments)
    (hnodup : (l.map Prod.fst).Nodup) {r : Except StoreError Unit}
    (hf : Fares P now (log.removeExpired seconds (log.pathsOf l)).run d gone r d') :
    ∃ lost s', gone = log.pathsOf lost ∧ log.Sheds seconds s lost s' ∧
      log.Holds d₀ here base d' s' := by
  -- On the segments that are still to be looked at; the lost ones go from the shelf one by one.
  induction l generalizing s d gone with
  | nil =>
      cases hf
      exact ⟨[], s, rfl, .refl log seconds s, h⟩
  | cons e l ih =>
      have he : e ∈ s.segments := hl e (List.mem_cons_self ..)
      have hl : ∀ x ∈ l, x ∈ s.segments := fun x hx => hl x (List.mem_cons_of_mem _ hx)
      obtain ⟨hnew, hnodup⟩ := List.nodup_cons.1 hnodup
      rw [pathsOf, List.map_cons, removeExpired] at hf
      rcases Action.fares_reading_bind hf (Action.only_access trivial) with
        ⟨rfl, rfl⟩ | ⟨stat, hstat, hnext⟩
      · exact ⟨[], s, rfl, .refl .., h⟩
      have hmodified := h.modified_of_fares he hstat
      by_cases hold : log.isExpired seconds e.2.modified = true
      · have hexpired : log.keeps seconds e.2 = false := by simp [keeps, hret, hold]
        simp only [hmodified, if_pos hold] at hnext
        rcases Action.fares_bind hnext with
          ⟨u, d₂, first, rest, rfl, hremove, hlast⟩ | ⟨err, -, hremove⟩
        · rcases h.fares_remove hb he hremove with ⟨rfl, h₁⟩ | ⟨rfl, rfl⟩
          · obtain ⟨lost, s', rfl, hs, h'⟩ := ih h₁ (fun x hx => by
              refine List.mem_filter.2 ⟨hl x hx, ?_⟩
              simpa using fun hxe : x.1 = e.1 => hnew (hxe ▸ List.mem_map_of_mem hx))
              hnodup hlast
            exact ⟨e :: lost, s', rfl, h.sheds_cons he hexpired hs, h'⟩
          · exact ih h hl hnodup hlast
        · rcases h.fares_remove hb he hremove with ⟨rfl, h₁⟩ | ⟨rfl, rfl⟩
          · exact ⟨[e], _, rfl, h.sheds_cons he hexpired (.refl ..), h₁⟩
          · exact ⟨[], s, rfl, .refl .., h⟩
      · simp only [hmodified, if_neg hold] at hnext
        exact ih h hl hnodup hnext

/-- The segments are listed in the order of their names, unless the directory cannot be listed. -/
theorem Holds.fares_segments {r : Except StoreError (List (List Char))}
    (hf : Fares P now log.segments.run d gone r d') : gone = [] ∧ d' = d ∧ ∀ paths, r = .ok paths →
      ∃ l : List (SegmentFile × Kept), paths = log.pathsOf l ∧ (∀ e ∈ l, e ∈ s.segments) ∧
        (l.map Prod.fst).Nodup := by
  obtain ⟨rfl, rfl⟩ := hf.of_isReading (only_segments log)
  refine ⟨rfl, rfl, ?_⟩
  rintro paths rfl
  have hrun := h.run_segments hb now
  rw [segments] at hf hrun
  rcases Action.fares_bind hf with ⟨names, d₁, first, rest, -, hlist, hdone⟩ | ⟨e, he, -⟩
  · rcases Action.fares_accessIfThere hlist with ⟨b, hb', htried⟩ | ⟨_, hnone | ⟨e, he⟩, -⟩
    -- What was listed is what the shelf has.
    · cases hb'
      rw [Action.run_bind_ok (Action.run_accessIfThere_ok htried.ok.1)] at hrun
      cases hdone
      have hnames := Except.ok.inj (Prod.mk.inj hrun).1
      refine ⟨s.inOrder, ?_, fun e he => s.inOrder_perm.mem_iff.1 he,
        (s.inOrder_perm.map Prod.fst).nodup_iff.2 h.nodup⟩
      rw [hnames, ← s.map_fst_inOrder, List.map_map]
      rfl
    · cases hnone
      cases hdone
      exact ⟨[], rfl, fun e he => absurd he List.not_mem_nil, .nil⟩
    · cases he
  · cases he

theorem Holds.fares_prune {seconds : Int} {r : Except StoreError Unit}
    (hf : Fares P now (log.prune seconds).run d gone r d') :
    ∃ lost s', gone = log.pathsOf lost ∧ log.Sheds seconds s lost s' ∧
      log.Holds d₀ here base d' s' := by
  rw [prune] at hf
  split at hf
  · next hret =>
    rcases Action.fares_bind hf with ⟨paths, d₁, first, rest, rfl, hlist, hremove⟩ | ⟨e, -, hlist⟩
    · obtain ⟨rfl, rfl, hpaths⟩ := h.fares_segments hb hlist
      obtain ⟨l, rfl, hl, hnodup⟩ := hpaths paths rfl
      exact h.fares_removeExpired hb hret hl hnodup hremove
    · obtain ⟨rfl, rfl, -⟩ := h.fares_segments hb hlist
      exact ⟨[], s, rfl, .refl .., h⟩
  · cases hf
    exact ⟨[], s, rfl, .refl .., h⟩

/-! ## Setting the active file aside -/

omit h in
theorem Begins.pathOf_ne {t : SegmentFile} (ht : log.Proper t)  : log.pathOf t ≠ log.path := by
  intro heq
  have hgoal := hb.goal_pathOf ht (.refl here d₀)
  rw [heq, hb.goal] at hgoal
  split at hgoal
  · cases hgoal
  · exact hb.ne_base ht (Disk.Goal.named.inj (Except.ok.inj hgoal)).2.symm

omit hb h in
/-- What the check before an append may make of a shelf: nothing, or its active file is set aside
    under the first free number of the day, and then some old segments are lost. -/
inductive Shifts (log : Log) (moment : Moment) (s : Shelf) :
    List (SegmentFile × Kept) → Shelf → Prop where
  | still : Shifts log moment s [] s
  | aside {k : Kept} {n : Nat} {lost : List (SegmentFile × Kept)} {s' : Shelf}
      (hk : s.active = some k) (hn : n < Text.halfWordBound)
      (hfree : log.FirstFree (s.segments.map Prod.fst) moment.today n)
      (hs : log.Sheds moment.seconds
        ⟨none, s.segments ++ [(log.family.segment moment.today n, k)]⟩ lost s') :
      Shifts log moment s lost s'

variable {moment : Moment} (hplain : moment.today.Plain) {cut : Bool}

include hplain

theorem Holds.fares_moveAside {k : Kept} (hk : s.active = some k)
    {r : Except StoreError (Option (List Char))}
    (hf : Fares (log.MayFail cut) moment.seconds (log.moveAside moment).run d gone r d') :
    ∃ lost s', gone = log.pathsOf lost ∧ log.Shifts moment s lost s' ∧
      log.Holds d₀ here base d' s' := by
  -- The active file is there, so that the search for a free number does not fail.
  have honly : (log.freeNumber moment.today.text 0 numberLimit).run.Only
      fun r => r.IsReading ∧ ¬ log.MayFail cut d r := by
    refine only_freeNumber log fun n hn => ⟨trivial, ?_⟩
    rw [segmentPath_eq]
    have hproper := proper_segment log hplain (n := n) (by rwa [Nat.zero_add] at hn)
    rintro (hpath | hgone)
    · exact hb.pathOf_ne hproper hpath
    · rw [(h.reaches hb).stat_file (h.get?_active hk)] at hgone
      cases hgone
  rw [moveAside] at hf
  rcases Action.fares_bind hf with ⟨m, d₁, first, rest, rfl, hnumber, hnext⟩ | ⟨e, -, hnumber⟩
  · obtain ⟨rfl, hrun⟩ := hnumber.run_eq honly
    rcases h.run_freeNumber hb moment.seconds hplain (Nat.zero_add numberLimit)
      (fun i hi => absurd hi (Nat.not_lt_zero i))
      with ⟨-, e, hrun'⟩ | ⟨n, hn, hfree, hrun'⟩
    · rw [hrun] at hrun'
      cases hrun'
    rw [hrun] at hrun'
    cases hrun'
    have hproper := proper_segment log hplain hn
    rw [segmentPath_eq] at hnext
    rcases Action.fares_bind hnext with ⟨u, d₂, first, rest, rfl, hmove, hlast⟩ | ⟨e, -, hmove⟩
    · rcases Action.fares_access hmove with ⟨b, -, htried⟩ | ⟨_, _, hb', -⟩
      · obtain ⟨hperform, rfl⟩ := htried.ok
        rcases h.perform_rename hb moment.seconds hproper hfree.free hk
          with ⟨-, d₃, hperform', h₁⟩ | ⟨-, fault, hperform'⟩
        · rw [hperform] at hperform'
          cases hperform'
          have haside : ∃ y, Fares (log.MayFail cut) moment.seconds
              (log.prune moment.seconds).run d₂ rest y d' := by
            rcases Action.fares_bind hlast with ⟨u, d₃, first, rest, rfl, hprune, hdone⟩ |
              ⟨e, -, hprune⟩
            · cases hdone
              rw [List.append_nil]
              exact ⟨_, hprune⟩
            · exact ⟨_, hprune⟩
          obtain ⟨y, hprune⟩ := haside
          obtain ⟨lost, s', rfl, hs, h'⟩ := h₁.fares_prune hb hprune
          exact ⟨lost, s', rfl, .aside hk hn hfree hs, h'⟩
        · rw [hperform] at hperform'
          cases hperform'
      · cases hb'
    · rcases Action.fares_access hmove with ⟨b, hb', -⟩ | ⟨fault, _, -, htried⟩
      · cases hb'
      · obtain ⟨rfl, bs, hpart⟩ := htried.error
        cases hpart
        exact ⟨[], s, rfl, .still, h⟩
  · obtain ⟨rfl, rfl⟩ := hnumber.of_isReading (only_freeNumber log fun _ _ => trivial)
    exact ⟨[], s, rfl, .still, h⟩

theorem Holds.fares_rotateIfFull {r : Except StoreError Unit}
    (hf : Fares (log.MayFail cut) moment.seconds (log.rotateIfFull moment).run d gone r d') :
    ∃ lost s', gone = log.pathsOf lost ∧ log.Shifts moment s lost s' ∧
      log.Holds d₀ here base d' s' := by
  have hsame : ∃ lost s', [] = log.pathsOf lost ∧ log.Shifts moment s lost s' ∧
      log.Holds d₀ here base d s' := ⟨[], s, rfl, .still, h⟩
  rw [rotateIfFull] at hf
  rcases Action.fares_reading_bind hf (Action.only_accessIfThere trivial) with
    ⟨rfl, rfl⟩ | ⟨stat, -, hnext⟩
  · exact hsame
  cases stat with
  | none =>
      cases hnext
      exact hsame
  | some stat =>
      by_cases hfull : log.maxBytes ≤ stat.size
      · simp only [if_pos hfull] at hnext
        obtain ⟨y, hrotate⟩ := Action.fares_discard hnext
        rw [rotate] at hrotate
        rcases Action.fares_reading_bind hrotate (Action.only_isThere trivial) with
          ⟨rfl, rfl⟩ | ⟨there, hthere, hlast⟩
        · exact hsame
        cases there with
        | false =>
            cases hlast
            exact hsame
        | true =>
            cases hk : s.active with
            | some k => exact h.fares_moveAside hb hplain hk hlast
            -- Without an active file nothing is found at its path.
            | none =>
                obtain ⟨answer, hanswer, htried⟩ := Action.fares_isThere hthere
                cases answer with
                | error fault => cases hanswer
                | ok b =>
                    have hperform := htried.ok.1
                    rw [h.perform_stat_none hb _ hk] at hperform
                    cases hperform
      · simp only [if_neg hfull] at hnext
        cases hnext
        exact hsame

end Holds

/-! ## Appending -/

/-- What the active file of a shelf holds. -/
def Shelf.content (s : Shelf) : List UInt8 := (s.active.map Kept.content).getD []

/-- Bytes are added to the active file, which may be made or touched for it; or nothing changes. -/
inductive Shelf.Grows (s : Shelf) : List UInt8 → Shelf → Prop where
  | still : Grows s [] s
  | added (bs : List UInt8) (t : Int) : Grows s bs { s with active := some ⟨s.content ++ bs, t⟩ }

theorem IsWriting.isSparing {r : Request} (h : IsWriting r) : r.IsSparing := by
  cases r <;> trivial

theorem only_writeLine (path : List Char) (line : List UInt8) :
    (writeLine path line).run.Only IsWriting :=
  Action.only_bind (Action.only_access trivial) fun _ =>
    Action.only_bind (Action.only_access trivial) fun _ => Action.only_access trivial

section Append

variable {log : Log} {d₀ d d' : Disk} {here : Place} {base : String} {s : Shelf} {now : Int}
  {cut : Bool} {gone : List (List Char)} (hb : log.Begins d₀ here base)
  (h : log.Holds d₀ here base d s)

include hb h

/-- The active file is opened, and made if it is not there. -/
theorem Holds.perform_openAppend (now : Int) : ∃ d' t,
    Disk.perform now d (.openAppend log.path) = (.ok s.content.length, d') ∧
      d.openAppend now log.path = .ok (s.content.length, d') ∧
      log.Holds d₀ here base d' { s with active := some ⟨s.content, t⟩ } := by
  have hperform : ∀ {n : Nat} {d' : Disk}, d.openAppend now log.path = .ok (n, d') →
      Disk.perform now d (.openAppend log.path) = (.ok n, d') := by
    intro n d' hopen
    rw [Disk.perform, hopen]
  cases hk : s.active with
  | none =>
      obtain ⟨d', hopen, h'⟩ := h.openAppend_none hb now hk
      have hcontent : s.content = [] := by rw [Shelf.content, hk]; rfl
      rw [hcontent]
      exact ⟨d', now, hperform hopen, hopen, h'⟩
  | some k =>
      have hopen := h.openAppend_some hb now hk
      have hcontent : s.content = k.content := by rw [Shelf.content, hk]; rfl
      have hshelf : { s with active := some ⟨k.content, k.modified⟩ } = s := by rw [← hk]
      rw [hcontent]
      refine ⟨d, k.modified, hperform hopen, hopen, ?_⟩
      rw [hshelf]
      exact h

/-- What is left of a line that could not be written whole is cut off, unless that fails as well. -/
theorem Holds.fares_tryWrite {k : Kept} (hk : s.active = some k) {line : List UInt8}
    {r : Except StoreError Unit}
    (hf : Fares (log.MayFail cut) now (tryCatch (writeLine log.path line) fun error => do
      discard ((Disk.Program.ask (.truncate log.path k.content.length)).bind fun a =>
        .done (.ok a) : Action _)
      throw error : Action Unit).run d gone r d') :
    gone = [] ∧ ∃ bs t, log.Holds d₀ here base d'
        { s with active := some ⟨k.content ++ bs, t⟩ } ∧
      (cut = false → ∀ e, r = .error e → bs = []) := by
  rw [Action.run_tryCatch_eq, Disk.Program.fares_bind] at hf
  obtain ⟨x, d₁, first, rest, rfl, hwrite, hrest⟩ := hf
  obtain ⟨rfl, hends⟩ := hwrite.ends (only_writeLine ..) (fun r hr => hr.isSparing)
    (fun _ _ hr _ => hr)
  rcases h.ends_writeLine hb hk hends with ⟨rfl, h₁⟩ | ⟨e, n, t, rfl, h₁⟩
  · cases hrest
    exact ⟨rfl, line, now, h₁, nofun⟩
  · obtain ⟨answer, d₂, first, rest, rfl, htried, hdone⟩ := Disk.Program.fares_access hrest
    cases hdone
    rw [htried.gone_eq trivial]
    refine ⟨rfl, ?_⟩
    cases htried with
    | performed hperform =>
        obtain ⟨d₃, htruncate, h₂⟩ := h₁.truncate hb now rfl k.content.length
        rw [Disk.perform, htruncate] at hperform
        cases hperform
        rw [List.take_left] at h₂
        exact ⟨[], now, by rwa [List.append_nil], fun _ _ _ => rfl⟩
    | failed hcut fault hpart =>
        cases hpart
        refine ⟨line.take n, t, h₁, fun hno => ?_⟩
        rw [hno] at hcut
        cases hcut

/-- Whichever accesses of an append fail, its bytes are in the active file or they are not; and if
    it fails they are not, unless they could not be cut off. -/
theorem Holds.fares_append {moment : Moment} (hplain : moment.today.Plain) {e : Entry}
    {r : Except StoreError Unit}
    (hf : Fares (log.MayFail cut) moment.seconds (log.append moment e).run d gone r d') :
    ∃ lost s₁ bs s', gone = log.pathsOf lost ∧ log.Shifts moment s lost s₁ ∧ s₁.Grows bs s' ∧
      log.Holds d₀ here base d' s' ∧ (cut = false → ∀ err, r = .error err → bs = []) := by
  rw [Log.append] at hf
  rcases Action.fares_bind hf with ⟨u, d₁, first, rest, rfl, hrotate, hnext⟩ | ⟨err, -, hrotate⟩
  · obtain ⟨lost, s₁, rfl, hshifts, h₁⟩ := h.fares_rotateIfFull hb hplain hrotate
    obtain ⟨d₂, t, hperform, hopen, h₂⟩ := h₁.perform_openAppend hb moment.seconds
    rcases Action.fares_bind hnext with
      ⟨n, d₃, first, rest, rfl, haccess, hlast⟩ | ⟨err, -, haccess⟩
    · rcases Action.fares_access haccess with ⟨b, hb', htried⟩ | ⟨_, _, hb', -⟩
      · cases hb'
        obtain ⟨hperform', rfl⟩ := htried.ok
        rw [hperform] at hperform'
        cases hperform'
        obtain ⟨rfl, bs, t', h₃, hcut⟩ := h₂.fares_tryWrite hb rfl hlast
        exact ⟨lost, s₁, bs, _, (List.append_nil _), hshifts, .added bs t', h₃, hcut⟩
      · cases hb'
    · rcases Action.fares_access haccess with ⟨b, hb', -⟩ | ⟨fault, _, -, htried⟩
      · cases hb'
      · obtain ⟨rfl, bs, hpart⟩ := htried.error
        rw [List.append_nil]
        cases hpart with
        | nothing => exact ⟨lost, s₁, [], s₁, rfl, hshifts, .still, h₁, fun _ _ _ => rfl⟩
        | opened hopen' =>
            rw [hopen] at hopen'
            cases hopen'
            refine ⟨lost, s₁, [], _, rfl, hshifts, .added [] t, ?_, fun _ _ _ => rfl⟩
            rw [List.append_nil]
            exact h₂
  · obtain ⟨lost, s₁, rfl, hshifts, h₁⟩ := h.fares_rotateIfFull hb hplain hrotate
    exact ⟨lost, s₁, [], s₁, rfl, hshifts, .still, h₁, fun _ _ _ => rfl⟩

end Append

/-! ## Reading -/

open Segment (Sound entriesOf isEnded kept lines newline tidy)

/-- The end of the active file may have been mended in part, without any entry being lost. -/
inductive Shelf.Tidied (s : Shelf) : Shelf → Prop where
  | still : Tidied s s
  | mended {k : Kept} (hk : s.active = some k) (hs : Sound (lines k.content)) {bs : List UInt8}
      (t : Int) (hbs : Sound (lines bs)) (he : entriesOf bs = entriesOf k.content) :
      Tidied s { s with active := some ⟨bs, t⟩ }

section Replay

variable {log : Log} {d₀ d d' : Disk} {here : Place} {base : String} {s : Shelf} {now : Int}
  {P : Disk → Request → Prop} {gone : List (List Char)} (hb : log.Begins d₀ here base)
  (h : log.Holds d₀ here base d s)

include hb h

theorem Holds.fares_mend {k : Kept} (hk : s.active = some k) {c : Segment.Content}
    (hc : Segment.parse k.content = .ok c) {r : Except StoreError Unit}
    (hf : Fares P now (mend log.path c).run d gone r d') :
    gone = [] ∧ ∃ s', s.Tidied s' ∧ log.Holds d₀ here base d' s' := by
  have hs : Sound (lines k.content) := by
    refine (Segment.sound_or_spoiledAt _).resolve_right fun ⟨n, hn⟩ => ?_
    rw [Segment.parse_of_spoiledAt hn] at hc
    cases hc
  obtain ⟨c', hparse, -, -, hlength, hended⟩ := Segment.parse_of_sound hs
  obtain rfl : c' = c := Except.ok.inj (hparse.symm.trans hc)
  obtain ⟨hsound, hentries⟩ := Segment.sound_flatten_kept hs
  obtain ⟨hclean, htidy⟩ := Segment.clean_tidy hs
  obtain ⟨d₁, htruncate, h₁⟩ := h.truncate hb now hk c'.cleanLength
  rw [hlength, Segment.take_flatten_kept] at h₁
  have hcut : ∀ t, s.Tidied { s with active := some ⟨(kept (lines k.content)).flatten, t⟩ } :=
    fun t => .mended hk hs t hsound hentries
  rw [mend] at hf
  rcases Action.fares_bind hf with ⟨u, d₂, first, rest, rfl, haccess, hnext⟩ | ⟨e, -, haccess⟩
  · rcases Action.fares_access haccess with ⟨b, -, htried⟩ | ⟨_, _, hb', -⟩
    swap
    · cases hb'
    obtain ⟨hperform, rfl⟩ := htried.ok
    rw [Disk.perform, htruncate] at hperform
    cases hperform
    by_cases hend : 0 < c'.cleanLength ∧ !c'.endsWithNewline
    · simp only [if_pos hend] at hnext
      obtain ⟨rfl, hends⟩ := hnext.ends (only_writeLine log.path [newline])
        (fun r hr => hr.isSparing) (fun _ _ hr _ => hr)
      have hnewline : tidy k.content = (kept (lines k.content)).flatten ++ [newline] := by
        rw [tidy, if_neg (by simpa [hended] using hend.2)]
      have hwhole : ∀ t, s.Tidied
          { s with active := some ⟨(kept (lines k.content)).flatten ++ [newline], t⟩ } := by
        intro t
        rw [← hnewline]
        exact .mended hk hs t hclean.sound htidy
      refine ⟨rfl, ?_⟩
      rcases h₁.ends_writeLine hb rfl hends with ⟨-, h₂⟩ | ⟨e, n, t, -, h₂⟩
      · exact ⟨_, hwhole now, h₂⟩
      · cases n with
        | zero =>
            refine ⟨_, ?_, h₂⟩
            rw [List.take_zero, List.append_nil]
            exact hcut t
        | succ n =>
            refine ⟨_, ?_, h₂⟩
            rw [List.take_of_length_le (Nat.le_add_left 1 n)]
            exact hwhole t
    · simp only [if_neg hend] at hnext
      obtain ⟨rfl, rfl⟩ := hnext.of_isReading (Action.only_access trivial)
      exact ⟨rfl, _, hcut now, h₁⟩
  · rcases Action.fares_access haccess with ⟨b, hb', -⟩ | ⟨fault, _, -, htried⟩
    · cases hb'
    · obtain ⟨rfl, bs, hpart⟩ := htried.error
      cases hpart
      exact ⟨rfl, s, .still, h⟩

/-- Whichever accesses of a replay fail, no segment is lost, and no entry of the active file. -/
theorem Holds.fares_replay {r : Except StoreError Replay}
    (hf : Fares P now log.replay.run d gone r d') :
    gone = [] ∧ ∃ s', s.Tidied s' ∧ log.Holds d₀ here base d' s' := by
  have hsame : ([] : List (List Char)) = [] ∧ ∃ s', s.Tidied s' ∧ log.Holds d₀ here base d s' :=
    ⟨rfl, s, .still, h⟩
  rw [replay] at hf
  rcases Action.fares_reading_bind hf (only_segments log) with ⟨rfl, rfl⟩ | ⟨paths, -, hf⟩
  · exact hsame
  rcases Action.fares_reading_bind hf (only_readSegments paths) with ⟨rfl, rfl⟩ | ⟨old, -, hf⟩
  · exact hsame
  rcases Action.fares_reading_bind hf (Action.only_accessIfThere trivial) with
    ⟨rfl, rfl⟩ | ⟨found, hread, hf⟩
  · exact hsame
  cases found with
  | none =>
      cases hf
      exact hsame
  | some bs =>
      rcases Action.fares_accessIfThere hread with ⟨b, hbs, htried⟩ | ⟨_, hnone | ⟨e, he⟩, -⟩
      · cases hbs
        have hperform := htried.ok.1
        cases hk : s.active with
        | none =>
            rw [h.perform_read_none hb now hk] at hperform
            cases hperform
        | some k =>
            rw [h.perform_read hb now hk] at hperform
            cases hperform
            dsimp only at hf
            cases hc : Segment.parse k.content with
            | error n =>
                rw [parseFile, hc] at hf
                cases hf
                exact hsame
            | ok c =>
                rw [parseFile, hc] at hf
                replace hf : Fares P now (do
                    if needsMending c k.content.length then mend log.path c
                    pure ⟨old ++ c.entries, paths.length + 1, c.torn⟩ : Action Replay).run
                    d gone r d' := hf
                by_cases hneeds : needsMending c k.content.length = true
                · simp only [if_pos hneeds] at hf
                  rcases Action.fares_bind hf with ⟨u, d₂, first, rest, rfl, hmend, hdone⟩ |
                    ⟨e, -, hmend⟩
                  · cases hdone
                    rw [List.append_nil]
                    exact h.fares_mend hb hk hc hmend
                  · exact h.fares_mend hb hk hc hmend
                · simp only [if_neg hneeds] at hf
                  cases hf
                  exact hsame
      · cases hnone
      · cases he

end Replay

end Reachability.Log
