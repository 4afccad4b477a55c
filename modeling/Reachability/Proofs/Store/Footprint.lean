import Reachability.Proofs.Log.Footprint
import Reachability.Proofs.Store.Failure

set_option autoImplicit false

/-! # What a store touches

Logs and stores work on a disk that may hold anything (`Works`). Whatever fails on the way, nothing
changes there but the active file and the segments of the log, and a segment is never changed: it is
new, it goes after its time, or it stays (`only_own_files_change`). -/

namespace Reachability.Store

open Disk (Grounded Place Reaches Writes)
open Disk.Program (Fares)

/-- An operation of a log or of a store on it. Almost every access may fail, and it may succeed or
    fail. -/
inductive Operates (log : Log) (moment : Moment) (d d' : Disk) : Prop where
  | opened {x : Except StoreError Store} {gone : List (List Char)}
      (hf : Fares (log.MayFail true) moment.seconds (opened log).run d gone x d')
  | loaded {s : Store} {x : Except StoreError Store} {gone : List (List Char)} (hlog : s.log = log)
      (hf : Fares (log.MayFail true) moment.seconds s.load.run d gone x d')
  | created {s : Store} {links : List String} {x : Except StoreError Task × Store}
      {gone : List (List Char)} (hlog : s.log = log)
      (hf : Fares (log.MayFail true) moment.seconds (s.create moment links) d gone x d')
  | updated {s : Store} {id : TaskId} {result : Results} {x : Except StoreError Unit × Store}
      {gone : List (List Char)} (hlog : s.log = log)
      (hf : Fares (log.MayFail true) moment.seconds (s.update moment id result) d gone x d')
  | appended {e : Log.Entry} {x : Except StoreError Unit} {gone : List (List Char)}
      (hf : Fares (log.MayFail true) moment.seconds (log.append moment e).run d gone x d')
  | rotated {x : Except StoreError (Option (List Char))} {gone : List (List Char)}
      (hf : Fares (log.MayFail true) moment.seconds (log.rotate moment).run d gone x d')

/-- Operations one after the other on a disk that is `d₀` before, at any times. -/
inductive Works (log : Log) (d₀ : Disk) : Disk → Prop where
  | start : Works log d₀ d₀
  | step {d d' : Disk} {moment : Moment} (h : Works log d₀ d) (hplain : moment.today.Plain)
      (ho : Operates log moment d d') : Works log d₀ d'

section Operations

variable {log : Log} {d d' : Disk} {moment : Moment}

/-- A load writes to the active file only. -/
theorem writes_of_load (g : Grounded d) {P : Disk → Disk.Request → Prop} {s : Store} {now : Int}
    {x : Except StoreError Store} {gone : List (List Char)}
    (hf : Fares P now s.load.run d gone x d') : Writes s.log.path d d' := by
  obtain ⟨y, hreplay, -⟩ := fares_load hf
  exact Log.fares_replay_writes g hreplay

theorem footprint_of_load (g : Grounded d) {s : Store} {x : Except StoreError Store}
    {gone : List (List Char)} (hlog : s.log = log) {P : Disk → Disk.Request → Prop} {now : Int}
    (hf : Fares P now s.load.run d gone x d') : log.Footprint now d d' := by
  have hwrites := writes_of_load g hf
  rw [hlog] at hwrites
  exact Log.footprint_of_phases (.inl rfl) (.refl log now g) hwrites

theorem footprint_refl (g : Grounded d) (seconds : Int) : log.Footprint seconds d d :=
  Log.footprint_of_phases (.inl rfl) (.refl log seconds g) (.refl log.path g)

theorem Operates.footprint (g : Grounded d) (hfile : log.LeadsToFile d)
    (hplain : moment.today.Plain) (h : Operates log moment d d') :
    log.Footprint moment.seconds d d' := by
  have hP : ∀ d r, log.MayFail true d r → log.MayFail true d r := fun _ _ h => h
  cases h with
  | opened hf => exact footprint_of_load g rfl hf
  | loaded hlog hf => exact footprint_of_load g hlog hf
  | created hlog hf =>
      rcases fares_create hf with ⟨-, -, -, rfl⟩ | ⟨-, y, happend, -⟩
      · exact footprint_refl g _
      · rw [hlog] at happend
        exact Log.fares_append_footprint g hfile hP hplain happend
  | updated hlog hf =>
      rcases fares_update hf with ⟨-, -, -, rfl⟩ | ⟨y, happend, -⟩
      · exact footprint_refl g _
      · rw [hlog] at happend
        exact Log.fares_append_footprint g hfile hP hplain happend
  | appended hf => exact Log.fares_append_footprint g hfile hP hplain hf
  | rotated hf => exact (Log.fares_rotate hplain g hfile hP hf).footprint g

end Operations

/-! ## Runs -/

/-- What every operation keeps. -/
structure Keeps (log : Log) (d₀ d : Disk) : Prop where
  grounded : Grounded d
  file : log.LeadsToFile d
  directories : Disk.SameDirectories d₀ d
  others : ∀ p, ¬ Reaches d₀ log.path p → ¬ log.SegmentAt d₀ p → d.node? p = d₀.node? p

theorem Works.keeps {log : Log} {d₀ d : Disk} (g : Grounded d₀) (hfile : log.LeadsToFile d₀)
    (h : Works log d₀ d) : Keeps log d₀ d := by
  induction h with
  | start => exact ⟨g, hfile, .refl d₀, fun _ _ _ => rfl⟩
  | step h hplain ho ih =>
      have hfoot := ho.footprint ih.grounded ih.file hplain
      refine ⟨hfoot.grounded, ih.file.same hfoot.grounded hfoot.directories,
        ih.directories.trans hfoot.directories, fun p hactive hsegment => ?_⟩
      rw [hfoot.others p (fun h => hactive (ih.directories.symm.reaches h))
        fun h => hsegment (h.same ih.directories.symm), ih.others p hactive hsegment]

/-- On a disk with anything on it, whose active file is a file if it is there, and after any
    operations that succeed or fail: everything that is neither the active file nor at the place of
    a segment is as it was; the next operation changes no segment, but it may put the active file as
    it is to a free place, and remove what has been kept long enough; a load does not even do that;
    and a rotation that tells the path of a new segment removes exactly the old segments. -/
theorem only_own_files_change {log : Log} {d₀ d : Disk} (g : Grounded d₀)
    (hfile : log.LeadsToFile d₀) (h : Works log d₀ d) :
    (∀ p, ¬ Reaches d₀ log.path p → ¬ log.SegmentAt d₀ p → d.node? p = d₀.node? p) ∧
      (∀ moment d', moment.today.Plain → Operates log moment d d' →
        ∀ p, log.SegmentAt d₀ p → log.Fate moment.seconds d d' p) ∧
      (∀ s : Store, s.log = log → ∀ now x gone d',
        Fares (log.MayFail true) now s.load.run d gone x d' →
          ∀ p, ¬ Reaches d₀ log.path p → d'.node? p = d.node? p) ∧
      ∀ P, Log.Sure P → (∀ d r, P d r → log.MayFail true d r) →
        ∀ moment path gone d', moment.today.Plain →
          Fares P moment.seconds (log.rotate moment).run d gone (.ok (some path)) d' →
            log.RotatedTo moment.seconds path d d' := by
  obtain ⟨gd, hd, hsame, hothers⟩ := h.keeps g hfile
  refine ⟨hothers, fun moment d' hplain ho p hp => ?_, fun s hlog now x gone d' hf p hp => ?_,
    fun P hsure hP moment path gone d' hplain hf => ?_⟩
  · exact (ho.footprint gd hd hplain).segments p (hp.same hsame)
  · refine (writes_of_load gd hf).others p fun hreaches => hp ?_
    rw [hlog] at hreaches
    exact hsame.symm.reaches hreaches
  · exact (Log.fares_rotate hplain gd hd hP hf).rotatedTo hsure

/-- Notes beside an old segment and an active file. -/
def sampleDisk : Disk :=
  ((Disk.put ⟨.empty⟩ ["notes.txt"] (.file [0x68] 0)).put ["tasks-2024-01-01.json"]
    (.file [] 0)).put ["tasks.json"] (.file [] 8)

theorem grounded_sampleDisk : Grounded sampleDisk := by
  have hput : ∀ (x : String) {d : Disk} {content : List UInt8} {t : Int}, Grounded d →
      Disk.Path.IsName x → d.node? [x] = none → Grounded (d.put [x] (.file content t)) :=
    fun x {d content t} g hx hfree =>
      show Grounded (d.put ([] ++ [x]) (.file content t)) from g.put hx ⟨0, rfl⟩ hfree nofun
  have hnotes : Grounded (Disk.put ⟨.empty⟩ ["notes.txt"] (.file [0x68] 0)) :=
    hput _ Disk.grounded_empty ⟨by decide, by decide, by decide, by decide⟩ (by decide +kernel)
  exact hput _ (hput _ hnotes ⟨by decide, by decide, by decide, by decide⟩ (by decide +kernel))
    ⟨by decide, by decide, by decide, by decide⟩ (by decide +kernel)

/-- What is on that disk after a task has been created. -/
def sampleWorked : Disk :=
  (((fresh (.sample (.ofSeconds 5))).create (Log.sampleMoment 8) []).run 8 sampleDisk).2

/-- The active file is then set aside. -/
def sampleRotated : Except StoreError (Option (List Char)) × Disk :=
  ((Log.sample (.ofSeconds 5)).rotate (Log.sampleMoment 9)).run.run 9 sampleWorked

/-- The notes stay. The old segment is gone after its time, and the active file is beside where it
    was, since its time has not come. -/
theorem only_own_files_change_beside_notes :
    Works (.sample (.ofSeconds 5)) sampleDisk sampleWorked ∧
      sampleWorked.node? ["notes.txt"] = some (.file [0x68] 0) ∧
      sampleRotated.1 = .ok (some "./tasks-2024-01-01.1.json".toList) ∧
      sampleRotated.2.node? ["tasks-2024-01-01.json"] = none ∧
      sampleRotated.2.node? ["tasks-2024-01-01.1.json"] = sampleWorked.node? ["tasks.json"] ∧
      sampleRotated.2.node? ["tasks.json"] = none := by
  have hfind : sampleDisk.find (Log.sample (.ofSeconds 5)).path
      = .ok (["tasks.json"], .file [] 8) := by decide +kernel
  have hfile : (Log.sample (.ofSeconds 5)).LeadsToFile sampleDisk := by
    intro p n h
    cases hfind.symm.trans h
    exact ⟨[], 8, rfl⟩
  obtain ⟨gone, hf⟩ := Disk.Program.fares_run (Log.MayFail (.sample (.ofSeconds 5)) true) 8
    ((fresh (.sample (.ofSeconds 5))).create (Log.sampleMoment 8) []) sampleDisk
  have hworks : Works (.sample (.ofSeconds 5)) sampleDisk sampleWorked :=
    .step .start (Log.plain_sampleMoment 8) (.created rfl hf)
  have hpath : sampleRotated.1 = .ok (some "./tasks-2024-01-01.1.json".toList) := by
    simp only [sampleRotated, Log.rotate, Log.prune, Log.segments, Log.SegmentFile.ofNames,
      Log.SegmentFile.mergeSort_eq_insertionSort]
    decide +kernel
  obtain ⟨hothers, -, -, hrotate⟩ := only_own_files_change grounded_sampleDisk hfile hworks
  have hnotes : sampleWorked.node? ["notes.txt"] = sampleDisk.node? ["notes.txt"] := by
    refine hothers _ (fun h => ?_) ?_
    · exact absurd (Except.ok.inj ((Disk.find_eq_ok hfind).1.symm.trans h.resolve)) (by decide)
    · rintro ⟨here, x, -, hp, hkey⟩
      have hname : [] ++ ["notes.txt"] = here ++ [x] := hp
      obtain ⟨-, hx⟩ := List.append_inj' hname rfl
      rw [← List.singleton_inj.1 hx] at hkey
      exact absurd hkey (by decide)
  obtain ⟨gone', hf'⟩ := Disk.Program.fares_run (fun _ _ => False) 9
    ((Log.sample (.ofSeconds 5)).rotate (Log.sampleMoment 9)).run sampleWorked
  replace hf' : Fares (fun _ _ => False) 9
      ((Log.sample (.ofSeconds 5)).rotate (Log.sampleMoment 9)).run sampleWorked gone'
      (.ok (some "./tasks-2024-01-01.1.json".toList)) sampleRotated.2 := hpath ▸ hf'
  obtain ⟨a, q, content, t, ha, hn, hq, -, -, hgone, hall⟩ :=
    hrotate _ (fun _ _ => ⟨not_false, not_false⟩) (fun _ _ h => h.elim) (Log.sampleMoment 9) _ _ _
      (Log.plain_sampleMoment 9) hf'
  have hactive : sampleWorked.resolve (Log.sample (.ofSeconds 5)).path = .ok ["tasks.json"] := by
    decide +kernel
  have htarget : sampleWorked.resolve "./tasks-2024-01-01.1.json".toList
      = .ok ["tasks-2024-01-01.1.json"] := by decide +kernel
  obtain rfl := Except.ok.inj (ha.resolve.symm.trans hactive)
  obtain rfl := Except.ok.inj (hq.symm.trans htarget)
  have hsegment : ∀ x : String, ((Log.sample (.ofSeconds 5)).family.key? x.toList).isSome = true →
      (Log.sample (.ofSeconds 5)).SegmentAt sampleWorked [x] :=
    fun x hx => ⟨[], x, by decide +kernel, rfl, hx⟩
  refine ⟨hworks, hnotes.trans (by decide +kernel), hpath, ?_, ?_, hgone⟩
  · rw [hall _ (hsegment _ (by decide +kernel)), if_neg (by decide)]
    decide +kernel
  · rw [hall _ (hsegment _ (by decide +kernel)), if_pos rfl, ← hn]
    decide +kernel

end Reachability.Store
