import Mathlib.Data.List.Induction
import Reachability.Store.Index

set_option autoImplicit false

/-! # The index of a log

One more entry is one more change of the index, and the next number is above those of all created
tasks and no further. What the index has of one task comes from the entries about that task. -/

namespace Reachability.Index

theorem ofEntries_concat (es : List Log.Entry) (e : Log.Entry) :
    ofEntries (es ++ [e]) = (ofEntries es).apply e.change := by
  rw [ofEntries, List.foldl_append]
  rfl

/-! ## The next number -/

theorem lt_max_iff {a b c : TaskId} : a < max b c ↔ a < b ∨ a < c := by
  show a < (if b ≤ c then c else b) ↔ _
  split
  · next h =>
    constructor
    · exact .inr
    · rintro (hb | hc)
      · exact Std.lt_of_lt_of_le hb h
      · exact hc
  · next h =>
    have hcb : c < b := Std.not_le.1 h
    constructor
    · exact .inl
    · rintro (hb | hc)
      · exact hb
      · exact Std.lt_trans hc hcb

theorem max_le_iff {a b c : TaskId} : max b c ≤ a ↔ b ≤ a ∧ c ≤ a := by
  rw [← Std.not_lt, lt_max_iff, not_or, Std.not_lt, Std.not_lt]

theorem toNat_lastId : lastId.toNat = 18446744073709551615 := rfl

theorem toNat_lt_of_ne {id : TaskId} (h : id ≠ lastId) : id.toNat < 18446744073709551615 := by
  have hne : id.toNat ≠ 18446744073709551615 := fun he => h (UInt64.toNat_inj.1 he)
  have hlt := id.toNat_lt
  omega

theorem eq_lastId_of_le {id : TaskId} (h : lastId ≤ id) : id = lastId := by
  have hlt := id.toNat_lt
  rw [UInt64.le_iff_toNat_le, toNat_lastId] at h
  rw [← UInt64.toNat_inj, toNat_lastId]
  omega

theorem toNat_idAfter {id : TaskId} (h : id ≠ lastId) : (idAfter id).toNat = id.toNat + 1 := by
  have hlt := toNat_lt_of_ne h
  rw [idAfter, if_neg h, UInt64.toNat_add, show (1 : UInt64).toNat = 1 from rfl]
  omega

/-- The number after another is the least one above it. The greatest number has none above it. -/
theorem lt_idAfter_iff {a b : TaskId} (h : a ≠ lastId) : a < idAfter b ↔ a ≤ b := by
  rw [UInt64.lt_iff_toNat_lt, UInt64.le_iff_toNat_le]
  by_cases hb : b = lastId
  · have ha := toNat_lt_of_ne h
    rw [hb, idAfter, if_pos rfl, toNat_lastId]
    omega
  · rw [toNat_idAfter hb]
    omega

theorem nextId_le_foldl (es : List Log.Entry) (i : Index) :
    i.nextId ≤ (es.foldl (fun i e => i.apply e.change) i).nextId := by
  induction es generalizing i with
  | nil => exact Std.le_refl _
  | cons e es ih =>
      refine Std.le_trans ?_ (ih _)
      show i.nextId ≤ (i.apply e.change).nextId
      cases e.change with
      | create t => exact (max_le_iff.1 (Std.le_refl _)).1
      | update id result => exact Std.le_refl _

/-- The number 0 is given to no task. -/
theorem nextId_pos (es : List Log.Entry) : 0 < (ofEntries es).nextId :=
  Std.lt_of_lt_of_le (show (0 : TaskId) < 1 by decide) (nextId_le_foldl es initial)

theorem lt_nextId_foldl (es : List Log.Entry) (i : Index) {id : TaskId} (h : id ≠ lastId) :
    id < (es.foldl (fun i e => i.apply e.change) i).nextId ↔
      id < i.nextId ∨ ∃ e ∈ es, ∃ t, e.change = .create t ∧ id ≤ t.id := by
  induction es generalizing i with
  | nil => simp
  | cons e es ih =>
      rw [List.foldl_cons, ih]
      constructor
      · rintro (hlt | ⟨f, hf, t, ht, hle⟩)
        · cases hc : e.change with
          | create t =>
              rw [hc] at hlt
              rcases lt_max_iff.1 hlt with hlt | hlt
              · exact .inl hlt
              · exact .inr ⟨e, List.mem_cons_self .., t, hc, (lt_idAfter_iff h).1 hlt⟩
          | update id' result =>
              rw [hc] at hlt
              exact .inl hlt
        · exact .inr ⟨f, List.mem_cons_of_mem _ hf, t, ht, hle⟩
      · rintro (hlt | ⟨f, hf, t, ht, hle⟩)
        · left
          cases e.change with
          | create t => exact lt_max_iff.2 (.inl hlt)
          | update id' result => exact hlt
        · rcases List.mem_cons.1 hf with rfl | hf
          · left
            rw [ht]
            exact lt_max_iff.2 (.inr ((lt_idAfter_iff h).2 hle))
          · exact .inr ⟨f, hf, t, ht, hle⟩

/-- A number is below the next one of a log if the log creates a task with it or with a greater
    one. -/
theorem lt_nextId_iff (es : List Log.Entry) {id : TaskId} (h : id ≠ lastId) (hpos : 0 < id) :
    id < (ofEntries es).nextId ↔ ∃ e ∈ es, ∃ t, e.change = .create t ∧ id ≤ t.id := by
  rw [ofEntries, lt_nextId_foldl es initial h]
  have hone : ¬ id < initial.nextId := by
    rw [UInt64.lt_iff_toNat_lt] at hpos ⊢
    have hzero : (0 : UInt64).toNat = 0 := rfl
    have hinitial : initial.nextId.toNat = 1 := rfl
    omega
  exact or_iff_right hone

/-! ## One task by itself -/

theorem get?_setResult (tasks : Table TaskId Task) (id other : TaskId) (result : Results) :
    (setResult tasks id result).get? other =
      if other = id then (tasks.get? id).map ({ · with result }) else tasks.get? other := by
  unfold setResult
  split
  · next t ht => rw [Table.get?_insert, ht, Option.map_some]
  · next hnone =>
    split
    · next he => rw [he, hnone, Option.map_none]
    · rfl

/-- Whether a change is about a task. -/
def concerns (id : TaskId) (e : Log.Entry) : Bool :=
  match e.change with
  | .create task => task.id == id
  | .update id' _ => id' == id

/-- What an entry makes of a task depends on what there was of that task. -/
theorem get?_apply {i j : Index} {id : TaskId} (h : i.tasks.get? id = j.tasks.get? id)
    (e : Log.Entry) : (i.apply e.change).tasks.get? id =
      if concerns id e = true then (j.apply e.change).tasks.get? id else j.tasks.get? id := by
  unfold concerns
  cases e.change with
  | create task =>
      show (i.tasks.insert task.id task).get? id = if (task.id == id) = true then
        (j.tasks.insert task.id task).get? id else j.tasks.get? id
      rw [Table.get?_insert, Table.get?_insert]
      by_cases hid : id = task.id
      · simp [hid]
      · simp [hid, Ne.symm hid, h]
  | update id' result =>
      show (setResult i.tasks id' result).get? id = if (id' == id) = true then
        (setResult j.tasks id' result).get? id else j.tasks.get? id
      rw [get?_setResult, get?_setResult]
      by_cases hid : id = id'
      · subst hid
        simp [h]
      · simp [hid, Ne.symm hid, h]

/-- The entries about other tasks do not matter. -/
theorem get?_ofEntries (es : List Log.Entry) (id : TaskId) :
    (ofEntries es).tasks.get? id = (ofEntries (es.filter (concerns id))).tasks.get? id := by
  induction es using List.reverseRecOn with
  | nil => rfl
  | append_singleton es e ih =>
      rw [ofEntries_concat, get?_apply ih, List.filter_append]
      by_cases he : concerns id e = true
      · rw [if_pos he, List.filter_cons_of_pos he, List.filter_nil, ofEntries_concat]
      · rw [if_neg he, List.filter_cons_of_neg he, List.filter_nil, List.append_nil]

end Reachability.Index
