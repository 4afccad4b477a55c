import Mathlib.Data.List.Nodup
import Mathlib.Data.List.Perm.Subperm
import Mathlib.Data.Nat.Find
import Reachability.Proofs.Log.Order

set_option autoImplicit false

/-! # Room for segments

A log finds a name for one more segment as long as there are more names that can be taken on a day
than there are segments. Then an append on a disk without faults succeeds. -/

namespace Reachability.Log

open Disk (Place)

/-- Whether a segment of a day can get a number: it can be read back, and neither the name with it
    nor the path is too long. -/
structure CanName (log : Log) (date : CivilDate) (n : Nat) : Prop where
  number : n < Text.halfWordBound
  path : ¬ Disk.longestPath <
    (String.ofList (log.pathOf (log.family.segment date n))).utf8ByteSize
  name : ¬ Disk.longestName < (log.family.segment date n).name.utf8ByteSize

/-- Ten segments and more can be named. -/
theorem canName_sample {n : Nat} (hn : n < 10) :
    (sample .zero).CanName (sampleMoment 0).today n := by
  have hpath : ∀ n < 10, ¬ Disk.longestPath < (String.ofList ((sample .zero).pathOf
      ((sample .zero).family.segment (sampleMoment 0).today n))).utf8ByteSize := by
    decide +kernel
  have hname : ∀ n < 10, ¬ Disk.longestName <
      ((sample .zero).family.segment (sampleMoment 0).today n).name.utf8ByteSize := by
    decide +kernel
  exact ⟨Nat.lt_trans hn (by decide), hpath n hn, hname n hn⟩

/-- One of the first numbers is free, as there are not enough segments to take them all. -/
theorem exists_free (log : Log) (taken : List SegmentFile) (date : CivilDate) :
    ∃ n ≤ taken.length, log.family.segment date n ∉ taken := by
  by_contra hnone
  push Not at hnone
  have hnodup : ((List.range (taken.length + 1)).map (log.family.segment date)).Nodup := by
    refine List.Nodup.map (fun a b hab => ?_) List.nodup_range
    exact congrArg SegmentFile.number hab
  have hsubset : (List.range (taken.length + 1)).map (log.family.segment date) ⊆ taken := by
    intro s hs
    obtain ⟨n, hn, rfl⟩ := List.mem_map.1 hs
    exact hnone n (Nat.lt_succ_iff.1 (List.mem_range.1 hn))
  have hle := (List.subperm_of_subset hnodup hsubset).length_le
  rw [List.length_map, List.length_range] at hle
  omega

theorem hasRoom_of_canName {log : Log} {d₀ : Disk} {here : Place} {base : String}
    (hb : log.Begins d₀ here base) {taken : List SegmentFile} {date : CivilDate}
    (hplain : date.Plain) (hname : ∀ n ≤ taken.length, log.CanName date n) :
    log.HasRoom d₀ here taken date := by
  obtain ⟨m, hm, hfree⟩ := log.exists_free taken date
  have hex : ∃ n, log.family.segment date n ∉ taken := ⟨m, hfree⟩
  have hle : Nat.find hex ≤ taken.length := Nat.le_trans (Nat.find_min' hex hfree) hm
  obtain ⟨hnumber, hpath, hlength⟩ := hname _ hle
  refine ⟨Nat.find hex, hnumber, ⟨Nat.find_spec hex, fun i hi => ?_⟩,
    hb.fits_segment (proper_segment log hplain hnumber) hpath hlength⟩
  exact not_not.1 (Nat.find_min hex hi)

namespace Ledger

variable {log : Log} {l l' : Ledger} {moment : Moment} {es : List Entry}

theorem Rotated.length_closed_le (h : l.Rotated log moment l') :
    l'.closed.length ≤ l.closed.length + 1 := by
  cases h with
  | kept => exact Nat.le_succ _
  | aside =>
      refine Nat.le_trans (List.length_filter_le ..) ?_
      rw [List.length_append, List.length_singleton]

end Ledger

/-- An append for whose segment there is a name adds its entry, and at most one segment. -/
theorem Ledger.Orderly.run_append {log : Log} {today : CivilDate} {moment : Moment} {l : Ledger}
    {d₀ d : Disk} {here : Place} {base : String} (ho : l.Orderly log today)
    (hb : log.Begins d₀ here base) (h : log.Holds d₀ here base d l.shelf)
    (hzero : log.retention = .zero) (hdate : today.upTo moment.today)
    (hplain : moment.today.Plain) (hname : ∀ n ≤ l.closed.length, log.CanName moment.today n)
    (e : Entry) :
    ∃ (l' : Ledger) (d' : Disk),
      (log.append moment e).run.run moment.seconds d = (.ok (), d') ∧
      log.Holds d₀ here base d' l'.shelf ∧ l'.Orderly log moment.today ∧
      l'.entries = l.entries ++ [e] ∧ l'.closed.length ≤ l.closed.length + 1 := by
  have hroom : log.HasRoom d₀ here (l.closed.map Prod.fst) moment.today :=
    hasRoom_of_canName hb hplain (by rwa [List.length_map])
  obtain ⟨d', hrun⟩ := h.run_append hb hplain e hroom
  have hends := Disk.Program.ends_run IsWriting moment.seconds (log.append moment e).run d
  rw [hrun] at hends
  obtain ⟨es, l', hd', hsettled, hr⟩ := h.ends_append hb hplain hends
  obtain ⟨ho', hentries⟩ := ho.settled hzero hdate hplain hsettled
  refine ⟨l', d', hrun, hd', ho', ?_, ?_⟩
  · rcases hr with ⟨-, rfl⟩ | ⟨err, herr, -⟩
    · exact hentries
    · cases herr
  · cases hsettled with
    | refused => exact Nat.le_succ _
    | rotated hrotated => exact hrotated.length_closed_le
    | touched hrotated now => exact hrotated.length_closed_le
    | written hrotated e => exact hrotated.length_closed_le

end Reachability.Log
