import Mathlib.Data.Finset.Card
import Mathlib.Data.Finset.Lattice.Fold
import Mathlib.Data.Finset.Dedup
import Mathlib.Order.Lattice.Nat
import Reachability.Proofs.Log.Found
import Reachability.Proofs.Store.Basic
import Reachability.Proofs.Table

set_option autoImplicit false

/-! # What a store is loaded with

The entries of a log add up to an index one after the other, and what an entry does depends on those
before it. What comes out is told without that order: a task is known if it was created, it is the
one that was created last, and it has the last result that it got since (`get?_ofEntries_of_last`).
So entries about different tasks may change places (`ofEntries_eq_of_filter`). -/

namespace Reachability

namespace Log

/-- The task that an entry creates. -/
def Entry.created? (e : Entry) : Option Task :=
  match e.change with
  | .create task => some task
  | .update .. => none

/-- The result that an entry stores for a task. -/
def Entry.storedFor? (id : TaskId) (e : Entry) : Option Results :=
  match e.change with
  | .create _ => none
  | .update id' result => if id' = id then some result else none

end Log

namespace Index

open Log (Entry)

/-- The numbers of the tasks that entries create. -/
def createdIds (es : List Entry) : Finset TaskId :=
  ((es.filterMap Entry.created?).map Task.id).toFinset

theorem mem_createdIds {es : List Entry} {id : TaskId} :
    id ∈ createdIds es ↔ ∃ e ∈ es, ∃ task, e.created? = some task ∧ task.id = id := by
  simp [createdIds]
  grind

theorem createdIds_append (es fs : List Entry) :
    createdIds (es ++ fs) = createdIds es ∪ createdIds fs := by
  simp [createdIds]

theorem createdIds_singleton (e : Entry) :
    createdIds [e] = e.created?.elim ∅ fun task => {task.id} := by
  unfold createdIds
  cases h : e.created? <;> simp [h]

/-! ## The tasks -/

/-- What one more entry makes of a task. -/
theorem get?_ofEntries_concat (es : List Entry) (e : Entry) (id : TaskId) :
    (ofEntries (es ++ [e])).tasks.get? id =
      if e.created?.map Task.id = some id then e.created?
      else ((ofEntries es).tasks.get? id).map fun t =>
        { t with result := (e.storedFor? id).getD t.result } := by
  rw [ofEntries_concat]
  unfold Entry.created? Entry.storedFor?
  cases e.change with
  | create task =>
      show ((ofEntries es).tasks.insert task.id task).get? id = _
      rw [Table.get?_insert]
      by_cases hid : task.id = id
      · simp [hid]
      · simp [hid, Ne.symm hid]
  | update id' result =>
      show (setResult (ofEntries es).tasks id' result).get? id = _
      rw [get?_setResult]
      by_cases hid : id' = id
      · simp [hid]
      · simp [hid, Ne.symm hid]

/-- A task is known just if it was created. -/
theorem contains_ofEntries (es : List Entry) (id : TaskId) :
    (ofEntries es).tasks.contains id = true ↔ id ∈ createdIds es := by
  rw [Table.contains, Option.isSome_iff_ne_none]
  induction es using List.reverseRecOn with
  | nil => simp [ofEntries, initial, createdIds]
  | append_singleton es e ih =>
      rw [get?_ofEntries_concat, createdIds_append, createdIds_singleton, Finset.mem_union, ← ih]
      cases e.created? with
      | none => simp
      | some task =>
          by_cases hid : task.id = id
          · simp [hid]
          · simp [hid, Ne.symm hid]

/-- The task that was created last has the last result that was stored since, if there is one. -/
theorem get?_ofEntries_of_last {before after : List Entry} {e : Entry} {task : Task}
    (he : e.created? = some task) (hlast : task.id ∉ createdIds after) :
    (ofEntries (before ++ e :: after)).tasks.get? task.id = some { task with
      result := (after.filterMap (·.storedFor? task.id)).getLast?.getD task.result } := by
  induction after using List.reverseRecOn with
  | nil => rw [get?_ofEntries_concat, he, Option.map_some, if_pos rfl]; rfl
  | append_singleton after f ih =>
      rw [createdIds_append, createdIds_singleton, Finset.mem_union, not_or] at hlast
      have hf : f.created?.map Task.id ≠ some task.id := by
        intro hf
        obtain ⟨other, hother, hid⟩ := Option.map_eq_some_iff.1 hf
        rw [hother] at hlast
        exact hlast.2 (Finset.mem_singleton.2 hid.symm)
      rw [← List.cons_append, ← List.append_assoc, get?_ofEntries_concat, if_neg hf, ih hlast.1,
        List.filterMap_append, Option.map_some]
      cases hstored : f.storedFor? task.id with
      | none => simp [hstored]
      | some result => simp [hstored]

/-! ## The next number -/

theorem toNat_max (a b : TaskId) : (max a b).toNat = max a.toNat b.toNat := by
  show (if a ≤ b then b else a).toNat = _
  split
  · next h => exact (Nat.max_eq_right (UInt64.le_iff_toNat_le.1 h)).symm
  · next h =>
    rw [UInt64.le_iff_toNat_le] at h
    omega

theorem toNat_idAfter_eq (id : TaskId) :
    (idAfter id).toNat = min (id.toNat + 1) lastId.toNat := by
  by_cases h : id = lastId
  · rw [h]
    rfl
  · have := toNat_lt_of_ne h
    rw [toNat_idAfter h, toNat_lastId]
    omega

/-- The next number is one more than the greatest that was given, 1 at least, and at most the
    greatest number that there is. -/
theorem toNat_nextId_ofEntries (es : List Entry) : (ofEntries es).nextId.toNat =
    max 1 (min ((createdIds es).sup fun id => id.toNat + 1) lastId.toNat) := by
  induction es using List.reverseRecOn with
  | nil => rfl
  | append_singleton es e ih =>
      have hlast := toNat_lastId
      rw [ofEntries_concat, createdIds_append, createdIds_singleton, Finset.sup_union]
      unfold Entry.created?
      cases e.change with
      | create task =>
          show (max (ofEntries es).nextId (idAfter task.id)).toNat = _
          rw [toNat_max, toNat_idAfter_eq, ih, Option.elim_some, Finset.sup_singleton]
          omega
      | update id result =>
          show (ofEntries es).nextId.toNat = _
          rw [ih, Option.elim_none, Finset.sup_empty, Nat.bot_eq_zero]
          omega

/-! ## The counts -/

theorem toFinset_keys_ofEntries (es : List Entry) :
    (ofEntries es).tasks.keys.toFinset = createdIds es := by
  ext id
  rw [List.mem_toFinset, Table.mem_keys_iff, ← Table.contains_iff, contains_ofEntries]

theorem nodup_map_fst {es : List (TaskId × Task)} (h : es.Pairwise fun a b => a.1 < b.1) :
    (es.map Prod.fst).Nodup :=
  List.pairwise_map.2 (h.imp fun hlt => Std.ne_of_lt hlt)

theorem isCompleted_iff {t : Task} : t.isCompleted = true ↔ t.result ≠ .empty := by
  obtain ⟨id, links, ⟨entries, ascending⟩⟩ := t
  simp [Task.isCompleted, Table.isEmpty, Table.empty]

/-- What is counted are the tasks that were created, and those of them that have a result. -/
theorem counts_ofEntries (es : List Entry) : (ofEntries es).counts =
    ((createdIds es).card, ((createdIds es).filter fun id =>
      ∃ t ∈ (ofEntries es).tasks.get? id, t.result ≠ .empty).card) := by
  let tasks := (ofEntries es).tasks
  let completed := tasks.entries.filter (·.2.isCompleted)
  have hids : tasks.keys.toFinset = createdIds es := toFinset_keys_ofEntries es
  have hcompleted : (completed.map Prod.fst).toFinset = (createdIds es).filter fun id =>
      ∃ t ∈ tasks.get? id, t.result ≠ .empty := by
    ext id
    simp only [completed, ← hids, Finset.mem_filter, List.mem_toFinset, List.mem_map,
      List.mem_filter, Table.mem_keys_iff, ← isCompleted_iff, Option.mem_def]
    constructor
    · rintro ⟨⟨id', t⟩, ⟨hmem, ht⟩, rfl⟩
      exact ⟨⟨t, Table.mem_entries_iff.1 hmem⟩, t, Table.mem_entries_iff.1 hmem, ht⟩
    · rintro ⟨-, t, hget, ht⟩
      exact ⟨(id, t), ⟨Table.mem_entries_iff.2 hget, ht⟩, rfl⟩
  have hkeys : tasks.keys.Nodup := nodup_map_fst tasks.ascending
  have hsize : tasks.size = (createdIds es).card := by
    rw [← hids, List.toFinset_card_of_nodup hkeys, Table.keys, List.length_map, Table.size]
  have hresults : (tasks.values.filter Task.isCompleted).length = completed.length := by
    rw [Table.values, List.filter_map, List.length_map]
    rfl
  rw [counts, ← hcompleted, List.toFinset_card_of_nodup (nodup_map_fst (tasks.ascending.filter _)),
    List.length_map]
  exact Prod.ext hsize hresults

/-! ## Other orders -/

/-- The entries about each task make the index, in whatever order they stand among the others. -/
theorem ofEntries_eq_of_filter {es fs : List Entry}
    (h : ∀ id, es.filter (concerns id) = fs.filter (concerns id)) : ofEntries es = ofEntries fs := by
  have hmem : ∀ e : Entry, e ∈ es ↔ e ∈ fs := by
    intro e
    obtain ⟨id, he⟩ : ∃ id, concerns id e = true := by
      unfold concerns
      cases e.change with
      | create task => exact ⟨task.id, beq_self_eq_true _⟩
      | update id result => exact ⟨id, beq_self_eq_true _⟩
    have := congrArg (e ∈ ·) (h id)
    simpa [List.mem_filter, he] using this
  have hids : createdIds es = createdIds fs := by
    ext id
    simp only [mem_createdIds, hmem]
  have htasks : (ofEntries es).tasks = (ofEntries fs).tasks :=
    Table.ext_get? fun id => by rw [get?_ofEntries, h, ← get?_ofEntries]
  have hnext : (ofEntries es).nextId = (ofEntries fs).nextId := by
    rw [← UInt64.toNat_inj, toNat_nextId_ofEntries, toNat_nextId_ofEntries, hids]
  calc ofEntries es = ⟨(ofEntries es).tasks, (ofEntries es).nextId⟩ := rfl
    _ = ofEntries fs := by rw [htasks, hnext]

end Index

namespace Store

/-- A load that can read the log takes its entries for what they add up to. A task is known just if
    it was created; it is the one that was created last, with the last result that was stored for it
    since. The next number is one more than the greatest that was given, and at most the greatest
    number that there is. The tasks are counted, and those that have a result. A log whose entries
    about each task are the same is taken for the same. -/
theorem load_recalls {s : Store} {now : Int} {d d' : Disk} {r : Log.Replay}
    (h : s.log.replay.run.run now d = (.ok r, d')) :
    ∃ i, s.load.run.run now d = (.ok ⟨s.log, i⟩, d') ∧
      (∀ id, i.tasks.contains id = true ↔ id ∈ Index.createdIds r.entries) ∧
      (∀ before e after task, r.entries = before ++ e :: after → e.created? = some task →
        task.id ∉ Index.createdIds after →
        i.tasks.get? task.id = some { task with
          result := (after.filterMap (·.storedFor? task.id)).getLast?.getD task.result }) ∧
      i.nextId.toNat = max 1 (min ((Index.createdIds r.entries).sup fun id => id.toNat + 1)
        Index.lastId.toNat) ∧
      i.counts = ((Index.createdIds r.entries).card, ((Index.createdIds r.entries).filter fun id =>
        ∃ t ∈ i.tasks.get? id, t.result ≠ .empty).card) ∧
      ∀ (s' : Store) (later : Int) (d₁ d₁' : Disk) (r' : Log.Replay),
        s'.log.replay.run.run later d₁ = (.ok r', d₁') →
        (∀ id, r'.entries.filter (Index.concerns id) = r.entries.filter (Index.concerns id)) →
        s'.load.run.run later d₁ = (.ok ⟨s'.log, i⟩, d₁') := by
  refine ⟨.ofEntries r.entries, run_load h, Index.contains_ofEntries r.entries, ?_,
    Index.toNat_nextId_ofEntries r.entries, Index.counts_ofEntries r.entries, ?_⟩
  · intro before e after task hsplit he hlast
    rw [hsplit]
    exact Index.get?_ofEntries_of_last he hlast
  · intro s' later d₁ d₁' r' h' hsame
    rw [run_load h', Index.ofEntries_eq_of_filter hsame]

/-- A result before its task, two creations of one task, the second one with a result, and one of a
    task with the greatest number. The creation of that may stand first as well. -/
theorem load_recalls_any_order :
    let entry (change : Log.Change) : Log.Entry := ⟨change, (Log.sampleMoment 0).stamp⟩
    let found (status : LinkStatus) : Results := .ofList [("a", status)]
    let first := entry (.create (.fresh Index.lastId []))
    let others := [entry (.update 5 (found .notAvailable)), entry (.create (.fresh 5 ["a"])),
      entry (.update 5 (found .available)), entry (.create ⟨5, ["b"], found .notAvailable⟩),
      entry (.update 7 .empty)]
    let disk (es : List Log.Entry) := Log.foundDisk [] (es.flatMap Log.Segment.line)
    ∃ i, (opened Log.foundLog).run.run 0 (disk (others ++ [first]))
        = (.ok ⟨Log.foundLog, i⟩, disk (others ++ [first])) ∧
      (opened Log.foundLog).run.run 0 (disk (first :: others))
        = (.ok ⟨Log.foundLog, i⟩, disk (first :: others)) ∧
      i.tasks.get? 5 = some ⟨5, ["b"], found .notAvailable⟩ ∧ i.tasks.contains 7 = false ∧
      i.nextId = Index.lastId ∧ i.counts = (2, 1) := by
  intro entry found first others disk
  have hreplay : (fresh Log.foundLog).log.replay.run.run 0 (disk (others ++ [first]))
      = (.ok ⟨others ++ [first], 2, false⟩, disk (others ++ [first])) := by decide +kernel
  have hreplay' : (fresh Log.foundLog).log.replay.run.run 0 (disk (first :: others))
      = (.ok ⟨first :: others, 2, false⟩, disk (first :: others)) := by decide +kernel
  obtain ⟨i, hload, hknown, hget, hnext, hcounts, hsame⟩ := load_recalls hreplay
  have hids : Index.createdIds (others ++ [first]) = {5, Index.lastId} := by decide +kernel
  have hfive := hget (others.take 3) _ [entry (.update 7 .empty), first] _ rfl rfl (by decide)
  have hgreatest : i.tasks.get? Index.lastId = some (.fresh Index.lastId []) :=
    hget others _ [] _ rfl rfl (by decide)
  refine ⟨i, hload, hsame _ _ _ _ _ hreplay' fun id => ?_, hfive, ?_, ?_, ?_⟩
  · by_cases hid : id = Index.lastId
    · rw [hid]
      decide +kernel
    · have hfirst : Index.concerns id first = false := beq_false_of_ne (Ne.symm hid)
      have hnone : [first].filter (Index.concerns id) = [] := by simp [hfirst]
      show ([first] ++ others).filter _ = (others ++ [first]).filter _
      rw [List.filter_append, List.filter_append, hnone, List.nil_append, List.append_nil]
  · rw [← Bool.not_eq_true, hknown, hids]
    decide
  · rw [← UInt64.toNat_inj, hnext, hids]
    decide
  · rw [hcounts, hids]
    simp only [Finset.filter_insert, Finset.filter_singleton, hfive, hgreatest]
    decide +kernel

end Store

end Reachability
