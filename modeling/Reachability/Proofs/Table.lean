import Reachability.Table

set_option autoImplicit false

/-! # Tables from lists

What is found in a table that is made of a list: the last entry for a key counts. So the entries of
a table make that table again. -/

namespace Reachability.Table

variable {κ ν : Type} [LT κ] [DecidableEq κ]

theorem contains_iff {t : Table κ ν} {k : κ} : t.contains k = true ↔ ∃ v, t.get? k = some v :=
  Option.isSome_iff_exists

omit [LT κ] in
theorem find?_append (k : κ) (a b : List (κ × ν)) :
    find? k (a ++ b) = (find? k a).or (find? k b) := by
  induction a with
  | nil => rfl
  | cons e a ih =>
      obtain ⟨k', v'⟩ := e
      simp only [List.cons_append, find?]
      split
      · rfl
      · exact ih

omit [LT κ] in
theorem find?_eq_none {k : κ} {es : List (κ × ν)} (h : ∀ v, (k, v) ∉ es) : find? k es = none := by
  cases hf : find? k es with
  | none => rfl
  | some v => exact absurd (mem_of_find? hf) (h v)

omit [LT κ] in
/-- A key that stands for one value only finds that value. -/
theorem find?_eq_some {k : κ} {v : ν} {es : List (κ × ν)} (h : (k, v) ∈ es)
    (hone : ∀ v', (k, v') ∈ es → v' = v) : find? k es = some v := by
  induction es with
  | nil => cases h
  | cons e es ih =>
      obtain ⟨k', v'⟩ := e
      by_cases hk : k = k'
      · subst hk
        simp [find?, hone v' (List.mem_cons_self ..)]
      · have hmem : (k, v) ∈ es := by
          rcases List.mem_cons.1 h with he | hmem
          · exact absurd (Prod.mk.inj he).1 hk
          · exact hmem
        simp only [find?, if_neg hk]
        exact ih hmem fun w hw => hone w (List.mem_cons_of_mem _ hw)

variable [LE κ] [Std.IsLinearOrder κ] [Std.LawfulOrderLT κ] [DecidableLT κ]

theorem get?_foldl_insert (es : List (κ × ν)) (t : Table κ ν) (k : κ) :
    (es.foldl (fun t e => t.insert e.1 e.2) t).get? k = (find? k es.reverse).or (t.get? k) := by
  induction es generalizing t with
  | nil => rfl
  | cons e es ih =>
      obtain ⟨k', v'⟩ := e
      rw [List.foldl_cons, ih, get?_insert, List.reverse_cons, find?_append, Option.or_assoc]
      by_cases hk : k = k' <;> simp [find?, hk]

/-- Of several entries with one key the last one counts. -/
theorem get?_ofList (es : List (κ × ν)) (k : κ) : (ofList es).get? k = find? k es.reverse := by
  rw [ofList, get?_foldl_insert, get?_empty, Option.or_none]

theorem get?_ofList_of_mem {k : κ} {v : ν} {es : List (κ × ν)} (h : (k, v) ∈ es)
    (hone : ∀ v', (k, v') ∈ es → v' = v) : (ofList es).get? k = some v := by
  rw [get?_ofList]
  exact find?_eq_some (List.mem_reverse.2 h) fun v' hv' => hone v' (List.mem_reverse.1 hv')

theorem get?_ofList_of_not_mem {k : κ} {es : List (κ × ν)} (h : ∀ v, (k, v) ∉ es) :
    (ofList es).get? k = none := by
  rw [get?_ofList]
  exact find?_eq_none fun v hv => h v (List.mem_reverse.1 hv)

omit [Std.IsLinearOrder κ] [DecidableLT κ] in
theorem mem_entries_iff {t : Table κ ν} {k : κ} {v : ν} : (k, v) ∈ t.entries ↔ t.get? k = some v :=
  ⟨find?_of_mem t.ascending, mem_of_find?⟩

omit [Std.IsLinearOrder κ] [DecidableLT κ] in
theorem mem_keys_iff {t : Table κ ν} {k : κ} : k ∈ t.keys ↔ ∃ v, t.get? k = some v := by
  simp only [keys, List.mem_map]
  constructor
  · rintro ⟨⟨k', v⟩, he, rfl⟩
    exact ⟨v, mem_entries_iff.1 he⟩
  · rintro ⟨v, hv⟩
    exact ⟨(k, v), mem_entries_iff.2 hv, rfl⟩

@[simp] theorem ofList_entries (t : Table κ ν) : ofList t.entries = t := by
  refine ext_get? fun k => ?_
  cases hk : t.get? k with
  | none =>
      refine get?_ofList_of_not_mem fun v hv => ?_
      rw [mem_entries_iff.1 hv] at hk
      cases hk
  | some v =>
      refine get?_ofList_of_mem (mem_entries_iff.2 hk) fun v' hv' => ?_
      exact Option.some.inj ((mem_entries_iff.1 hv').symm.trans hk)

end Reachability.Table
