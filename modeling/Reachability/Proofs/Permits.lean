import Mathlib.Data.List.Nodup
import Mathlib.Tactic.Tauto
import Reachability.Permits

set_option autoImplicit false

/-! # Who has a permit

Permits serve a set of tasks if exactly these have a permit or wait for one, each of them once, and
nobody waits while a permit is free. Asking, giving back and giving up keep that. A single permit is
a lock: at most one task has it, and whenever somebody wants it, somebody has it. -/

namespace Reachability.Permits

/-- Permits serve the tasks that have one or wait for one. -/
structure Serves (p : Permits) (served : TaskKey → Prop) : Prop where
  nodup : (p.holders ++ p.waiting).Nodup
  mem_iff : ∀ key, key ∈ p.holders ++ p.waiting ↔ served key
  busy : p.waiting ≠ [] → p.free = 0

variable {p : Permits} {served served' : TaskKey → Prop} {key other : TaskKey}

theorem holds_iff : p.holds key = true ↔ key ∈ p.holders := List.contains_iff_mem

/-! ## Others keep their permits -/

theorem holds_request (h : p.holds other = true) : (p.request key).holds other = true := by
  rw [holds_iff] at h ⊢
  unfold request
  split
  · exact List.mem_append_left _ h
  · exact h

theorem holds_release_of_ne (hne : other ≠ key) (h : p.holds other = true) :
    (p.release key).holds other = true := by
  rw [holds_iff] at h
  have herase : other ∈ p.holders.erase key := (List.mem_erase_of_ne hne).2 h
  unfold release
  split
  · split
    · rw [holds_iff]
      exact herase
    · rw [holds_iff]
      exact List.mem_append_left _ herase
  · rwa [holds_iff]

/-! ## How many have a permit or wait for one -/

/-- The tasks that have a permit or wait for one. -/
def users (p : Permits) : List TaskKey := p.holders ++ p.waiting

/-- Who asks comes last. -/
theorem users_request (p : Permits) (key : TaskKey) : (p.request key).users = p.users ++ [key] := by
  unfold request users
  split
  · next hfree => rw [hfree.2, List.append_nil, List.append_nil]
  · exact (List.append_assoc ..).symm

theorem length_users_request (p : Permits) (key : TaskKey) :
    (p.request key).users.length = p.users.length + 1 := by
  rw [users_request, List.length_append, List.length_singleton]

theorem length_users_release (h : p.holds key = true) :
    (p.release key).users.length + 1 = p.users.length := by
  have hmem := holds_iff.1 h
  have hpos := List.length_pos_of_mem hmem
  unfold release users
  rw [if_pos h]
  split
  · next hwaiting =>
    simp only [hwaiting, List.length_append, List.length_erase_of_mem hmem, List.length_nil]
    omega
  · next hwaiting =>
    simp only [hwaiting, List.length_append, List.length_erase_of_mem hmem, List.length_cons,
      List.length_nil]
    omega

/-! ## The tasks that are served -/

theorem serves_ofNat (n : Nat) : (ofNat n).Serves fun _ => False where
  nodup := .nil
  mem_iff _ := ⟨nofun, nofun⟩
  busy h := absurd rfl h

namespace Serves

theorem congr (h : p.Serves served) (hserved : ∀ key, served key ↔ served' key) :
    p.Serves served' where
  nodup := h.nodup
  mem_iff key := (h.mem_iff key).trans (hserved key)
  busy := h.busy

theorem of_holds (h : p.Serves served) (hkey : p.holds key = true) : served key :=
  (h.mem_iff key).1 (List.mem_append_left _ (holds_iff.1 hkey))

/-- A task that asks is served from then on. -/
theorem request (h : p.Serves served) (hkey : ¬ served key) :
    (p.request key).Serves fun other => served other ∨ other = key := by
  have hnew : key ∉ p.holders ++ p.waiting := fun hmem => hkey ((h.mem_iff key).1 hmem)
  unfold Permits.request
  split
  · next hfree =>
    refine ⟨?_, fun other => ?_, fun hwaiting => absurd hfree.2 hwaiting⟩
    · rw [hfree.2, List.append_nil] at hnew ⊢
      have hnodup := h.nodup
      rw [hfree.2, List.append_nil] at hnodup
      exact List.nodup_append.2 ⟨hnodup, List.nodup_singleton _, fun a ha b hb hab =>
        hnew (List.mem_singleton.1 hb ▸ hab ▸ ha)⟩
    · rw [← h.mem_iff]
      simp only [List.mem_append, List.mem_singleton]
      tauto
  · next hbusy =>
    refine ⟨?_, fun other => ?_, fun _ => ?_⟩
    · rw [← List.append_assoc]
      exact List.nodup_append.2 ⟨h.nodup, List.nodup_singleton _, fun a ha b hb hab =>
        hnew (List.mem_singleton.1 hb ▸ hab ▸ ha)⟩
    · rw [← h.mem_iff, ← List.append_assoc, List.mem_append, List.mem_singleton]
    · by_cases hwaiting : p.waiting = []
      · by_cases hfree : 0 < p.free
        · exact absurd ⟨hfree, hwaiting⟩ hbusy
        · exact Nat.eq_zero_of_not_pos hfree
      · exact h.busy hwaiting

/-- A task that gives its permit back is served no more. -/
theorem release (h : p.Serves served) (hkey : p.holds key = true) :
    (p.release key).Serves fun other => served other ∧ other ≠ key := by
  have hmem := holds_iff.1 hkey
  have hnodup := List.nodup_append.1 h.nodup
  have herase : ∀ other, other ∈ p.holders.erase key ↔ other ∈ p.holders ∧ other ≠ key := by
    intro other
    rw [hnodup.1.mem_erase_iff, and_comm]
  have hout : ∀ other ∈ p.waiting, other ≠ key := fun other hw he =>
    hnodup.2.2 key hmem other hw he.symm
  unfold Permits.release
  rw [if_pos hkey]
  split
  · next hwaiting =>
    refine ⟨?_, fun other => ?_, fun hne => absurd hwaiting hne⟩
    · rw [hwaiting, List.append_nil]
      exact hnodup.1.erase key
    · rw [← h.mem_iff, hwaiting, List.append_nil, List.append_nil, herase]
  · next next rest hwaiting =>
    have hperm : (p.holders.erase key ++ [next]) ++ rest = p.holders.erase key ++ p.waiting := by
      rw [hwaiting, List.append_assoc, List.singleton_append]
    refine ⟨?_, fun other => ?_, fun _ => ?_⟩
    · rw [hperm]
      exact List.nodup_append.2 ⟨hnodup.1.erase key, hnodup.2.1, fun a ha b hb =>
        hnodup.2.2 a (List.mem_of_mem_erase ha) b hb⟩
    · rw [hperm, ← h.mem_iff, List.mem_append, List.mem_append, herase]
      have := hout other
      tauto
    · exact h.busy (by rw [hwaiting]; exact List.cons_ne_nil _ _)

/-- A task that gives up its place in line is served no more. -/
theorem leave (h : p.Serves served) (hkey : p.holds key = false) :
    (p.leave key).Serves fun other => served other ∧ other ≠ key := by
  have hmem : key ∉ p.holders := fun hm => Bool.eq_false_iff.1 hkey (holds_iff.2 hm)
  have hnodup := List.nodup_append.1 h.nodup
  refine ⟨?_, fun other => ?_, fun hne => h.busy fun hnil => hne ?_⟩
  · exact List.nodup_append.2 ⟨hnodup.1, hnodup.2.1.erase key, fun a ha b hb =>
      hnodup.2.2 a ha b (List.mem_of_mem_erase hb)⟩
  · rw [← h.mem_iff]
    show other ∈ p.holders ++ p.waiting.erase key ↔ _
    rw [List.mem_append, List.mem_append, hnodup.2.1.mem_erase_iff]
    constructor
    · rintro (hm | ⟨hne, hm⟩)
      · exact ⟨.inl hm, fun he => hmem (he ▸ hm)⟩
      · exact ⟨.inr hm, hne⟩
    · rintro ⟨hm | hm, hne⟩
      · exact .inl hm
      · exact .inr ⟨hne, hm⟩
  · show p.waiting.erase key = []
    rw [hnil]
    rfl

end Serves

/-! ## Locks -/

/-- At most one task has a lock. -/
theorem holds_unique (hlock : p.total = 1) (hkey : p.holds key = true)
    (hother : p.holds other = true) : key = other := by
  rw [holds_iff] at hkey hother
  have hle : p.holders.length ≤ 1 := by
    rw [total] at hlock
    omega
  cases hholders : p.holders with
  | nil =>
      rw [hholders] at hkey
      cases hkey
  | cons a others =>
      have hothers : others = [] := by
        rw [hholders, List.length_cons] at hle
        exact List.eq_nil_of_length_eq_zero (by omega)
      rw [hholders, hothers] at hkey hother
      rw [List.mem_singleton.1 hkey, List.mem_singleton.1 hother]

/-- If somebody wants a lock, somebody has it. -/
theorem Serves.exists_holds (h : p.Serves served) (hlock : p.total = 1) (hkey : served key) :
    ∃ holder, p.holds holder = true := by
  rcases List.mem_append.1 ((h.mem_iff key).2 hkey) with hmem | hmem
  · exact ⟨key, holds_iff.2 hmem⟩
  · have hfree := h.busy (List.ne_nil_of_mem hmem)
    rw [total, hfree, Nat.zero_add] at hlock
    obtain ⟨holder, hholder⟩ := List.exists_mem_of_length_pos (by rw [hlock]; exact Nat.one_pos)
    exact ⟨holder, holds_iff.2 hholder⟩

/-- Who has a lock comes before all who wait for it, and who gives it back lets the others move
    up. -/
theorem users_release (hlock : p.total = 1) (hkey : p.holds key = true) :
    p.users = key :: (p.release key).users := by
  have hholders : p.holders = [key] := by
    have hmem := holds_iff.1 hkey
    have hpos := List.length_pos_of_mem hmem
    rw [total] at hlock
    obtain ⟨holder, hholder⟩ := List.length_eq_one_iff.1 (by omega : p.holders.length = 1)
    rw [hholder, List.mem_singleton] at hmem
    rw [hholder, hmem]
  unfold release
  rw [if_pos hkey, users, hholders]
  split
  · next hwaiting =>
    rw [hwaiting, users, List.erase_cons_head]
    rfl
  · next next rest hwaiting =>
    rw [hwaiting, users, List.erase_cons_head]
    rfl

/-- Who comes before all others has the lock. -/
theorem Serves.holds_first (h : p.Serves served) (hlock : p.total = 1) {rest : List TaskKey}
    (line : p.users = key :: rest) : p.holds key = true := by
  have hmem : key ∈ p.users := line ▸ List.mem_cons_self
  obtain ⟨holder, hholder⟩ := h.exists_holds hlock ((h.mem_iff key).1 hmem)
  have hfirst := users_release hlock hholder
  rw [line] at hfirst
  rw [(List.cons.inj hfirst).1]
  exact hholder

/-- Nobody comes before the one who has the lock. -/
theorem Serves.not_before (h : p.Serves served) (hlock : p.total = 1) (hkey : p.holds key = true)
    (hne : other ≠ key) : ¬ [other, key].Sublist p.users := by
  intro order
  have hnodup : p.users.Nodup := h.nodup
  rw [users_release hlock hkey] at order hnodup
  have hbehind := List.Sublist.of_cons_of_ne hne order
  exact (List.nodup_cons.1 hnodup).1 (hbehind.subset (List.mem_cons_of_mem _ List.mem_cons_self))

/-- A lock that serves the tasks that are inside; those that own it have it. -/
structure Guards (p : Permits) (inside owning : TaskKey → Prop) : Prop where
  lock : p.total = 1
  serves : p.Serves inside
  holds : ∀ key, owning key → p.holds key = true

/-- What a task can do with a lock: stay outside, ask for the lock, stay inside with it, or give it
    back. -/
inductive Passes (p : Permits) (key : TaskKey) (was is owns : Prop) : Permits → Prop where
  | outside (before : ¬ was) (after : ¬ is) : Passes p key was is owns p
  | enters (before : ¬ was) (after : is) (idle : ¬ owns) : Passes p key was is owns (p.request key)
  | inside (before : was) (after : is) (holds : p.holds key = true) : Passes p key was is owns p
  | leaves (before : was) (after : ¬ is) (holds : p.holds key = true) :
      Passes p key was is owns (p.release key)

namespace Guards

variable {p' : Permits} {inside inside' owning owning' : TaskKey → Prop}

/-- At most one task owns the lock. -/
theorem unique (h : p.Guards inside owning) (hkey : owning key) (hother : owning other) :
    key = other :=
  holds_unique h.lock (h.holds _ hkey) (h.holds _ hother)

theorem congr (h : p.Guards inside owning) (hinside : ∀ key, inside' key ↔ inside key)
    (howning : ∀ key, owning' key → owning key) : p.Guards inside' owning' where
  lock := h.lock
  serves := h.serves.congr fun key => (hinside key).symm
  holds key hkey := h.holds key (howning key hkey)

/-- A lock stays in order when one task passes it. -/
theorem step (h : p.Guards inside owning) (key : TaskKey)
    (passes : p.Passes key (inside key) (inside' key) (owning' key) p')
    (needs : owning' key → inside' key)
    (others : ∀ other, other ≠ key →
      (inside' other ↔ inside other) ∧ (owning' other → owning other)) :
    p'.Guards inside' owning' := by
  have hothers : ∀ other, other ≠ key → owning' other → p.holds other = true :=
    fun other hne hu => h.holds other ((others other hne).2 hu)
  -- Whether the task itself is inside is all that can change.
  have hserves : ∀ {q : Permits} {b : Prop}, (inside' key ↔ b) →
      q.Serves (fun other => if other = key then b else inside other) → q.Serves inside' := by
    intro q b hb hq
    refine hq.congr fun other => ?_
    by_cases hne : other = key
    · rw [if_pos hne, hne, hb]
    · rw [if_neg hne, (others other hne).1]
  cases passes with
  | outside before after =>
      refine ⟨h.lock, hserves (iff_false_intro after) (h.serves.congr fun other => ?_),
        fun other hu => ?_⟩
      · by_cases hne : other = key
        · rw [if_pos hne, hne]
          exact iff_false_intro before
        · rw [if_neg hne]
      · by_cases hne : other = key
        · exact absurd (needs (hne ▸ hu)) after
        · exact hothers other hne hu
  | enters before after idle =>
      refine ⟨by rw [total_request, h.lock], hserves (iff_true_intro after)
        ((h.serves.request before).congr fun other => ?_), fun other hu => ?_⟩
      · by_cases hne : other = key
        · rw [if_pos hne]
          exact iff_true_intro (.inr hne)
        · rw [if_neg hne]
          exact or_iff_left hne
      · by_cases hne : other = key
        · exact absurd (hne ▸ hu) idle
        · exact holds_request (hothers other hne hu)
  | inside before after holds =>
      refine ⟨h.lock, hserves (iff_true_intro after) (h.serves.congr fun other => ?_),
        fun other hu => ?_⟩
      · by_cases hne : other = key
        · rw [if_pos hne, hne]
          exact iff_true_intro before
        · rw [if_neg hne]
      · by_cases hne : other = key
        · rw [hne]
          exact holds
        · exact hothers other hne hu
  | leaves before after holds =>
      refine ⟨by rw [total_release, h.lock], hserves (iff_false_intro after)
        ((h.serves.release holds).congr fun other => ?_), fun other hu => ?_⟩
      · by_cases hne : other = key
        · rw [if_pos hne]
          exact iff_false_intro fun hboth => hboth.2 hne
        · rw [if_neg hne]
          exact and_iff_left hne
      · by_cases hne : other = key
        · exact absurd (needs (hne ▸ hu)) after
        · exact holds_release_of_ne hne (hothers other hne hu)

end Guards

/-! ## Who gets a permit -/

/-- Those who have a permit afterwards and had none before. -/
def gained (p p' : Permits) : List TaskKey := p'.holders.filter fun key => !p.holds key

theorem mem_gained {p' : Permits} :
    key ∈ p.gained p' ↔ p'.holds key = true ∧ p.holds key = false := by
  rw [gained, List.mem_filter, holds_iff, Bool.not_eq_true']

theorem gained_eq_nil {p' : Permits} (h : ∀ key ∈ p'.holders, key ∈ p.holders) :
    p.gained p' = [] := by
  refine List.filter_eq_nil_iff.2 fun key hkey => ?_
  rw [Bool.not_eq_true', Bool.not_eq_false, holds_iff]
  exact h key hkey

theorem gained_self (p : Permits) : p.gained p = [] := gained_eq_nil fun _ => id

/-- Other tasks keep their permits, and a task that stays inside keeps its own. -/
theorem Passes.holds {p' : Permits} {was is owns : Prop} (passes : p.Passes key was is owns p')
    (h : p.holds other = true) (stays : other = key → was ∧ is) : p'.holds other = true := by
  cases passes with
  | outside => exact h
  | inside => exact h
  | enters before after idle => exact holds_request h
  | leaves before after holds =>
      exact holds_release_of_ne (fun heq => after (stays heq).2) h

/-- Those who stay in line for a lock stay in their order. -/
theorem Passes.sublist {p' : Permits} {was is owns : Prop} (passes : p.Passes key was is owns p')
    (hlock : p.total = 1) {keys : List TaskKey} (h : keys.Sublist p.users)
    (stays : key ∈ keys → is) : keys.Sublist p'.users := by
  cases passes with
  | outside => exact h
  | inside => exact h
  | enters before after idle =>
      rw [users_request]
      exact h.trans (List.sublist_append_left ..)
  | leaves before after holds =>
      rw [users_release hlock holds, List.sublist_cons_iff] at h
      rcases h with h | ⟨others, rfl, -⟩
      · exact h
      · exact absurd (stays List.mem_cons_self) after

/-- One step gives a permit to one task at most: to the one that asks for it, or to one in line. -/
theorem Passes.gained_cases {p' : Permits} {was is owns : Prop}
    (passes : p.Passes key was is owns p') (serves : p.Serves served) (was_iff : served key ↔ was) :
    p.gained p' = [] ∨ ∃ next, p.gained p' = [next] ∧
      (next = key ∧ ¬ served key ∨ next ≠ key ∧ served next) := by
  have hnodup := List.nodup_append.1 serves.nodup
  -- Of some who had a permit and one more who had none, only that one gets it.
  have hone : ∀ (held : List TaskKey) (next : TaskKey), (∀ key ∈ held, key ∈ p.holders) →
      next ∉ p.holders → (held ++ [next]).filter (fun key => !p.holds key) = [next] := by
    intro held next hheld hnext
    rw [List.filter_append, List.filter_eq_nil_iff.2 (fun key hkey => ?_), List.nil_append]
    · refine List.filter_eq_self.2 fun key hkey => ?_
      rw [List.mem_singleton.1 hkey, Bool.not_eq_true', ← Bool.not_eq_true, holds_iff]
      exact hnext
    · rw [Bool.not_eq_true', Bool.not_eq_false, holds_iff]
      exact hheld key hkey
  cases passes with
  | outside => exact .inl (gained_self p)
  | inside => exact .inl (gained_self p)
  | enters before after idle =>
      have before : ¬ served key := fun h => before (was_iff.1 h)
      have hnot : key ∉ p.holders := fun hmem =>
        before ((serves.mem_iff key).1 (List.mem_append_left _ hmem))
      unfold gained Permits.request
      split
      · exact .inr ⟨key, hone _ _ (fun _ => id) hnot, .inl ⟨rfl, before⟩⟩
      · exact .inl (gained_self p)
  | leaves before after holds =>
      unfold gained Permits.release
      rw [if_pos holds]
      split
      · exact .inl (gained_eq_nil fun _ => List.mem_of_mem_erase)
      · next next rest hwaiting =>
        have hmem : next ∈ p.waiting := by
          rw [hwaiting]
          exact List.mem_cons_self
        have hnot : next ∉ p.holders := fun h => hnodup.2.2 next h next hmem rfl
        refine .inr ⟨next, hone _ _ (fun _ => List.mem_of_mem_erase) hnot, .inr ⟨?_, ?_⟩⟩
        · rintro rfl
          exact hnot (holds_iff.1 holds)
        · exact (serves.mem_iff next).1 (List.mem_append_right _ hmem)

end Reachability.Permits
