set_option autoImplicit false

/-! # Tables

A finite table keeps its entries in strictly ascending order of their keys, so two tables with the
same content are equal. Each operation is described by what `get?` finds afterwards:
`get?_insert`, `get?_erase`, `get?_empty`; `ext_get?` says that nothing else matters. -/

namespace Reachability

/-- A finite map, its entries in strictly ascending order of their keys. -/
structure Table (κ ν : Type) [LT κ] where
  /-- The entries, by ascending key. -/
  entries : List (κ × ν)
  /-- Keys ascend strictly, so no key occurs twice. -/
  ascending : entries.Pairwise fun a b => a.1 < b.1

namespace Table

variable {κ ν : Type} [LT κ]

instance [DecidableEq κ] [DecidableEq ν] : DecidableEq (Table κ ν) := fun a b =>
  decidable_of_iff (a.entries = b.entries)
    ⟨fun h => by cases a; cases b; simp_all, fun h => h ▸ rfl⟩

/-- The table without entries. -/
def empty : Table κ ν := ⟨[], .nil⟩

instance : Inhabited (Table κ ν) := ⟨empty⟩

/-- Whether the table has no entries. -/
def isEmpty (t : Table κ ν) : Bool := t.entries.isEmpty

/-- The number of entries. -/
def size (t : Table κ ν) : Nat := t.entries.length

/-- The keys, ascending. -/
def keys (t : Table κ ν) : List κ := t.entries.map Prod.fst

/-- The values, by ascending key. -/
def values (t : Table κ ν) : List ν := t.entries.map Prod.snd

/-- What the entries hold for a key. -/
def find? [DecidableEq κ] (k : κ) : List (κ × ν) → Option ν
  | [] => none
  | (k', v) :: rest => if k = k' then some v else find? k rest

/-- The value at a key. -/
def get? [DecidableEq κ] (t : Table κ ν) (k : κ) : Option ν := find? k t.entries

/-- Whether the table has an entry for a key. -/
def contains [DecidableEq κ] (t : Table κ ν) (k : κ) : Bool := (t.get? k).isSome

/-- Puts an entry in its place among ascending ones; an entry with the same key gives way. -/
def place [DecidableLT κ] (k : κ) (v : ν) : List (κ × ν) → List (κ × ν)
  | [] => [(k, v)]
  | (k', v') :: rest =>
    if k < k' then (k, v) :: (k', v') :: rest
    else if k' < k then (k', v') :: place k v rest
    else (k, v) :: rest

theorem mem_place [DecidableLT κ] {k : κ} {v : ν} {a : κ × ν} {es : List (κ × ν)}
    (h : a ∈ place k v es) : a = (k, v) ∨ a ∈ es := by
  induction es with
  | nil => simpa [place] using h
  | cons e rest ih =>
    obtain ⟨k', v'⟩ := e
    simp only [place] at h
    split at h
    · simpa using h
    · split at h
      · rcases List.mem_cons.1 h with rfl | h
        · simp
        · rcases ih h with h | h <;> simp [h]
      · rcases List.mem_cons.1 h with h | h <;> simp [h]

section Ordered

variable [LE κ] [Std.IsLinearOrder κ] [Std.LawfulOrderLT κ]

theorem eq_of_not_lt_of_not_lt {a b : κ} (h : ¬ a < b) (h' : ¬ b < a) : a = b :=
  Std.le_antisymm (Std.not_lt.1 h') (Std.not_lt.1 h)

variable [DecidableLT κ]

theorem pairwise_place {k : κ} {v : ν} {es : List (κ × ν)}
    (h : es.Pairwise fun a b => a.1 < b.1) : (place k v es).Pairwise fun a b => a.1 < b.1 := by
  induction es with
  | nil => simp [place]
  | cons e rest ih =>
    obtain ⟨k', v'⟩ := e
    have hr := List.pairwise_cons.1 h
    simp only [place]
    split
    · next hlt =>
      refine List.pairwise_cons.2 ⟨fun a ha => ?_, h⟩
      rcases List.mem_cons.1 ha with rfl | ha
      · exact hlt
      · exact Std.lt_trans hlt (hr.1 a ha)
    · next hge =>
      split
      · next hgt =>
        refine List.pairwise_cons.2 ⟨fun a ha => ?_, ih hr.2⟩
        rcases mem_place ha with rfl | ha
        · exact hgt
        · exact hr.1 a ha
      · next hle =>
        have : k = k' := eq_of_not_lt_of_not_lt hge hle
        subst this
        exact List.pairwise_cons.2 ⟨hr.1, hr.2⟩

/-- The table with `v` at `k`. -/
def insert (t : Table κ ν) (k : κ) (v : ν) : Table κ ν :=
  ⟨place k v t.entries, pairwise_place t.ascending⟩

/-- The table with the given entries; of several with one key the last counts. -/
def ofList (es : List (κ × ν)) : Table κ ν := es.foldl (fun t e => t.insert e.1 e.2) empty

end Ordered

/-- The table without an entry at `k`. -/
def erase [DecidableEq κ] (t : Table κ ν) (k : κ) : Table κ ν :=
  ⟨t.entries.filter (·.1 ≠ k), t.ascending.sublist List.filter_sublist⟩

/-! ## What is found after each operation -/

@[simp] theorem get?_empty [DecidableEq κ] (k : κ) : (empty : Table κ ν).get? k = none := rfl

omit [LT κ] in
theorem find?_filter_ne [DecidableEq κ] (k j : κ) (es : List (κ × ν)) :
    find? j (es.filter (·.1 ≠ k)) = if j = k then none else find? j es := by
  induction es with
  | nil => simp [find?]
  | cons e rest ih => grind [find?]

@[simp] theorem get?_erase [DecidableEq κ] (t : Table κ ν) (k j : κ) :
    (t.erase k).get? j = if j = k then none else t.get? j :=
  find?_filter_ne k j t.entries

omit [LT κ] in
theorem mem_of_find? [DecidableEq κ] {k : κ} {v : ν} {es : List (κ × ν)}
    (h : find? k es = some v) : (k, v) ∈ es := by
  induction es with
  | nil => simp [find?] at h
  | cons e rest ih => grind [find?]

section Lookup

variable [LE κ] [Std.IsLinearOrder κ] [Std.LawfulOrderLT κ] [DecidableEq κ]

theorem find?_place [DecidableLT κ] (k j : κ) (v : ν) (es : List (κ × ν)) :
    find? j (place k v es) = if j = k then some v else find? j es := by
  induction es with
  | nil => simp [place, find?]
  | cons e rest ih =>
    obtain ⟨k', v'⟩ := e
    have irrefl : ∀ a : κ, ¬ a < a := fun a => Std.lt_irrefl
    have anti : ¬ k < k' → ¬ k' < k → k = k' := eq_of_not_lt_of_not_lt
    grind [place, find?]

@[simp] theorem get?_insert [DecidableLT κ] (t : Table κ ν) (k j : κ) (v : ν) :
    (t.insert k v).get? j = if j = k then some v else t.get? j :=
  find?_place k j v t.entries

omit [Std.IsLinearOrder κ] in
theorem find?_of_mem {k : κ} {v : ν} {es : List (κ × ν)}
    (hs : es.Pairwise fun a b => a.1 < b.1) (h : (k, v) ∈ es) : find? k es = some v := by
  induction es with
  | nil => simp at h
  | cons e rest ih =>
    obtain ⟨k', v'⟩ := e
    have hr := List.pairwise_cons.1 hs
    rcases List.mem_cons.1 h with heq | hmem
    · simp_all [find?]
    · have hlt := hr.1 _ hmem
      have hne : k ≠ k' := fun he => Std.lt_irrefl (he ▸ hlt)
      simp [find?, hne, ih hr.2 hmem]

/-- Tables in which every key finds the same value are equal. -/
theorem ext_get? {s t : Table κ ν} (h : ∀ k, s.get? k = t.get? k) : s = t := by
  obtain ⟨es, hs⟩ := s
  obtain ⟨et, ht⟩ := t
  simp only [get?] at h
  suffices es = et by simp [this]
  have sub : ∀ {a b : List (κ × ν)}, (∀ k, find? k a = find? k b) →
      a.Pairwise (fun x y => x.1 < y.1) → ∀ e ∈ a, e ∈ b := fun hab ha e he =>
    mem_of_find? ((hab e.1).symm.trans (find?_of_mem ha he))
  induction es generalizing et with
  | nil =>
    cases et with
    | nil => rfl
    | cons e rest => exact absurd (sub (fun k => (h k).symm) ht e (by simp)) (by simp)
  | cons a as ih =>
    cases et with
    | nil => exact absurd (sub h hs a (by simp)) (by simp)
    | cons b bs =>
      have ha := List.pairwise_cons.1 hs
      have hb := List.pairwise_cons.1 ht
      have heads : a = b := by
        rcases List.mem_cons.1 (sub h hs a (by simp)) with hab | hab
        · exact hab
        · rcases List.mem_cons.1 (sub (fun k => (h k).symm) ht b (by simp)) with hba | hba
          · exact hba.symm
          · exact absurd (Std.lt_trans (hb.1 a hab) (ha.1 b hba)) Std.lt_irrefl
      subst heads
      have tails : as = bs := by
        refine ih ha.2 bs hb.2 fun k => ?_
        by_cases hk : k = a.1
        · subst hk
          have none_of : ∀ {l : List (κ × ν)}, (∀ x ∈ l, a.1 < x.1) → find? a.1 l = none := by
            intro l hl
            cases hf : find? a.1 l with
            | none => rfl
            | some v => exact absurd (hl _ (mem_of_find? hf)) Std.lt_irrefl
          rw [none_of ha.1, none_of hb.1]
        · simpa [find?, hk] using h k
      rw [tails]

end Lookup

end Table

end Reachability
