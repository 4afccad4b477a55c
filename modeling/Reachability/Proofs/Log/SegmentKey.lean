import Mathlib.Data.List.Sort
import Reachability.Proofs.Log.Shelf

set_option autoImplicit false

/-! # The key of a segment

The date and the number of a segment are its key. Whatever the path of a log is, if it has a last
name, then the name made for a key tells that key and no other, and the active file has no key. So a
directory lists its segments in the order of their keys (`names_tell_keys`). -/

namespace Reachability.Log

/-- A date and a number for which a segment can be named. -/
structure IsKey (k : CivilDate × Nat) : Prop where
  plain : k.1.Plain
  small : k.2 < Text.halfWordBound

/-- A key comes before another one: it is of an earlier date, or of the same date and of a smaller
    number. -/
def Precedes (k k' : CivilDate × Nat) : Prop :=
  k.1.before k'.1 = true ∨ k.1 = k'.1 ∧ k.2 < k'.2

theorem Precedes.ne {k k' : CivilDate × Nat} (h : Precedes k k') : k ≠ k' := by
  rintro rfl
  rcases h with h | ⟨-, h⟩
  · rw [CivilDate.before_irrefl] at h
    cases h
  · exact absurd h (Nat.lt_irrefl _)

/-- The segment of a key. -/
def ofKey (log : Log) (k : CivilDate × Nat) : SegmentFile := log.family.segment k.1 k.2

theorem Precedes.le {k k' : CivilDate × Nat} (h : Precedes k k') (log : Log) :
    (log.ofKey k).le (log.ofKey k') = true := by
  rw [SegmentFile.le_iff]
  rcases h with h | ⟨hdate, hnumber⟩
  · exact .inl h
  · exact .inr ⟨hdate, .inl hnumber⟩

/-- Different keys make different segments. -/
theorem ofKey_injective (log : Log) : Function.Injective log.ofKey := by
  intro k k' h
  exact Prod.ext (congrArg SegmentFile.date h) (congrArg SegmentFile.number h)

namespace SegmentFile

/-- The segments in a directory are its names that tell a key. -/
theorem map_name_ofNames_perm (f : SegmentFamily) (names : List String) :
    ((ofNames f names).map name).Perm (names.filter fun x => (f.key? x.toList).isSome) := by
  refine ((List.mergeSort_perm ..).map name).trans (.of_eq ?_)
  rw [List.map_filterMap, ← List.filterMap_eq_filter]
  refine List.filterMap_congr fun x _ => ?_
  cases hx : f.key? x.toList <;> simp [Option.guard, hx]

/-- Segments that are in order are listed in that order, whatever is listed between them. -/
theorem sublist_ofNames {f : SegmentFamily} {names : List String} {ss : List SegmentFile}
    (hnodup : ss.Nodup) (hasc : ss.Pairwise fun a b => a.le b = true)
    (hmem : ∀ s ∈ ss, s.name ∈ names ∧ f.key? s.name.toList = some (s.date, s.number)) :
    ss.Sublist (ofNames f names) := by
  have : Std.Antisymm fun a b : SegmentFile => a.le b = true := ⟨fun _ _ => le_antisymm⟩
  have hsubset : ss ⊆ ofNames f names := fun s hs => mem_ofNames.2 (hmem s hs)
  exact List.sublist_of_subperm_of_pairwise (List.subperm_of_subset hnodup hsubset) hasc
    (pairwise_mergeSort _)

end SegmentFile

section Named

variable {log : Log} {base : List Char} (h : Disk.Path.name? log.path = some base)

include h

/-- The active file has no key. -/
theorem key?_of_name? : log.family.key? base = none := by
  have hbase := SegmentFamily.ofPath_append h
  rw [← hbase]
  exact log.family.key?_active

/-- The name of a segment is the last one of its path. -/
theorem name?_segmentPath {k : CivilDate × Nat} (hk : IsKey k) :
    Disk.Path.name? (log.segmentPath k.1.text k.2) = some (log.family.name k.1.text k.2) := by
  have hbase := Disk.Path.isName_of_name? h
  have hname := SegmentFamily.isName_name (f := log.family) hbase
    (by rw [String.toList_ofList]; exact SegmentFamily.ofPath_append h) hk.plain k.2
  have hjoin := Disk.Path.name?_join log.directory hname
  rwa [String.toList_ofList] at hjoin

theorem segmentPath_injective {k k' : CivilDate × Nat} (hk : IsKey k) (hk' : IsKey k')
    (heq : log.segmentPath k.1.text k.2 = log.segmentPath k'.1.text k'.2) : k = k' := by
  have hname := name?_segmentPath h hk
  rw [heq, name?_segmentPath h hk'] at hname
  have hkey := log.family.key?_name hk.plain hk.small
  rw [← Option.some.inj hname, log.family.key?_name hk'.plain hk'.small] at hkey
  exact (Option.some.inj hkey).symm

end Named

/-- The paths of keys that ascend are listed in their order. -/
theorem sublist_segmentPath (log : Log) {names : List String} {keys : List (CivilDate × Nat)}
    (hkeys : ∀ k ∈ keys, IsKey k) (hmem : ∀ k ∈ keys, (log.ofKey k).name ∈ names)
    (hasc : keys.Pairwise Precedes) :
    (keys.map fun k => log.segmentPath k.1.text k.2).Sublist
      ((SegmentFile.ofNames log.family names).map log.pathOf) := by
  have hpaths : (keys.map fun k => log.segmentPath k.1.text k.2)
      = (keys.map log.ofKey).map log.pathOf := by
    rw [List.map_map]
    exact List.map_congr_left fun k _ => segmentPath_eq log k.1 k.2
  rw [hpaths]
  refine (SegmentFile.sublist_ofNames ?_ ?_ fun s hs => ?_).map _
  · exact List.Nodup.map (ofKey_injective log) (hasc.imp Precedes.ne)
  · exact List.pairwise_map.2 (hasc.imp fun h => h.le log)
  · obtain ⟨k, hk, rfl⟩ := List.mem_map.1 hs
    exact ⟨hmem k hk, (log.proper_segment (hkeys k hk).plain (hkeys k hk).small).key?⟩

/-- If the path of a log has a last name, then the active file is not taken for a segment, and the
    path of the segment for a key ends with a name that tells this key, so different keys have
    different paths. Whatever names a directory holds and in whatever order it gives them, those
    that tell a key are found, and the paths of keys that ascend are found in their order. -/
theorem names_tell_keys {log : Log} {base : List Char}
    (h : Disk.Path.name? log.path = some base) :
    log.family.key? base = none ∧
      (∀ k, IsKey k → ∃ name, Disk.Path.name? (log.segmentPath k.1.text k.2) = some name ∧
        log.family.key? name = some k) ∧
      (∀ k k', IsKey k → IsKey k' →
        log.segmentPath k.1.text k.2 = log.segmentPath k'.1.text k'.2 → k = k') ∧
      (∀ (d : Disk) (now : Int) (names : List String), d.list log.directory = .ok names →
        log.segments.run.run now d
          = (.ok ((SegmentFile.ofNames log.family names).map log.pathOf), d)) ∧
      ∀ names : List String,
        ((SegmentFile.ofNames log.family names).map SegmentFile.name).Perm
          (names.filter fun x => (log.family.key? x.toList).isSome) ∧
        ∀ keys : List (CivilDate × Nat), (∀ k ∈ keys, IsKey k) →
          (∀ k ∈ keys, String.ofList (log.family.name k.1.text k.2) ∈ names) →
          keys.Pairwise Precedes →
          (keys.map fun k => log.segmentPath k.1.text k.2).Sublist
            ((SegmentFile.ofNames log.family names).map log.pathOf) :=
  ⟨key?_of_name? h,
    fun _ hk => ⟨_, name?_segmentPath h hk, log.family.key?_name hk.plain hk.small⟩,
    fun _ _ => segmentPath_injective h,
    fun _ now _ hlist => run_segments_of_list hlist now,
    fun names => ⟨SegmentFile.map_name_ofNames_perm log.family names,
      fun _ => sublist_segmentPath log⟩⟩

/-- A log whose stem is like the name of a segment and whose extension is like a number. Of one
    date, the segment of number 10 is found behind that of number 9. -/
theorem names_tell_keys_like_a_segment :
    let log : Log := ⟨"logs/tasks-2024-01-01.10".toList, 1, .zero⟩
    let ninth : CivilDate × Nat := (⟨2024, 1, 1⟩, 9)
    let tenth : CivilDate × Nat := (⟨2024, 1, 1⟩, 10)
    let names := ["notes", String.ofList (log.family.name tenth.1.text tenth.2),
      "tasks-2024-01-01.10", String.ofList (log.family.name ninth.1.text ninth.2)]
    log.family.key? "tasks-2024-01-01.10".toList = none ∧
      [log.segmentPath ninth.1.text ninth.2, log.segmentPath tenth.1.text tenth.2].Sublist
        ((SegmentFile.ofNames log.family names).map log.pathOf) := by
  intro log ninth tenth names
  have hbase : Disk.Path.name? log.path = some "tasks-2024-01-01.10".toList := by decide +kernel
  obtain ⟨hactive, -, -, -, hlisted⟩ := names_tell_keys hbase
  have hplain : CivilDate.Plain ⟨2024, 1, 1⟩ := ⟨by decide, by decide, by decide⟩
  refine ⟨hactive, (hlisted names).2 [ninth, tenth] (fun k hk => ?_) (fun k hk => ?_)
    (List.pairwise_pair.2 (.inr ⟨rfl, by decide⟩))⟩
  · rcases List.mem_pair.1 hk with rfl | rfl
    · exact ⟨hplain, by decide⟩
    · exact ⟨hplain, by decide⟩
  · rcases List.mem_pair.1 hk with rfl | rfl <;> simp [names]

end Reachability.Log
