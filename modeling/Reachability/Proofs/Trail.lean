import Reachability.Proofs.Schedule

set_option autoImplicit false

/-! # Trails

A trail is a run together with what was done in it: for each turn which task took it, what it found
and what it left. What a task does late may depend on what it was told early; a trail says both. -/

namespace Reachability

/-- A turn that a task took. -/
structure Deed (σ τ : Type) where
  /-- When. -/
  time : Nat
  /-- The number of the task. -/
  key : TaskKey
  /-- What the tasks shared before. -/
  found : σ
  /-- The task before. -/
  task : τ
  /-- What it made of both. -/
  turn : Turn σ τ

/-- What is read off a history with one more event. -/
theorem filterMap_concat {α β : Type} (f : α → Option β) (l : List α) (a : α) :
    (l ++ [a]).filterMap f = l.filterMap f ++ (f a).toList := by
  rw [List.filterMap_append, List.filterMap_cons, List.filterMap_nil]
  cases f a <;> rfl

namespace Crowd

variable {σ τ : Type}

/-- The turn that a task of a crowd takes. -/
def deed (p : Process σ τ) (c : Crowd σ τ) (key : TaskKey) (task : τ) : Deed σ τ :=
  ⟨c.now, key, c.shared, task, p.step c.now key c.tasks.length c.shared task⟩

/-- The runs of a crowd, with the turns taken, the first one first. -/
inductive Trail (p : Process σ τ) (pace : Crowd σ τ → Nat → Prop) (calls : τ → Prop)
    (first : Crowd σ τ) : List (Deed σ τ) → Crowd σ τ → Prop
  | begin : Trail p pace calls first [] first
  | turn {deeds : List (Deed σ τ)} {c : Crowd σ τ} {key : TaskKey} {task : τ}
      (trail : Trail p pace calls first deeds c) (can : c.CanGo p key task) :
      Trail p pace calls first (deeds ++ [c.deed p key task]) (c.turn p key task)
  | await {deeds : List (Deed σ τ)} {c : Crowd σ τ} {later : Nat}
      (trail : Trail p pace calls first deeds c) (le : c.now ≤ later) (may : pace c later) :
      Trail p pace calls first deeds (c.await later)
  | call {deeds : List (Deed σ τ)} {c : Crowd σ τ} {task : τ}
      (trail : Trail p pace calls first deeds c) (may : calls task) :
      Trail p pace calls first deeds (c.call task)

variable {p : Process σ τ} {pace pace' : Crowd σ τ → Nat → Prop} {calls calls' : τ → Prop}
  {first c c' : Crowd σ τ} {deeds deeds' : List (Deed σ τ)} {n : Nat}

/-- What was done on a trail can be forgotten. -/
theorem Trail.run (h : Trail p pace calls first deeds c) :
    Run p pace calls first deeds.length c := by
  induction h with
  | begin => exact .begin
  | turn trail can ih =>
      rw [List.length_append, List.length_singleton]
      exact ih.turn can
  | await trail le may ih => exact ih.await le may
  | call trail may ih => exact ih.call may

/-- Whatever is run is done on some trail. -/
theorem Run.trail (h : Run p pace calls first n c) : ∃ deeds, Trail p pace calls first deeds c := by
  induction h with
  | begin => exact ⟨_, .begin⟩
  | turn run can ih =>
      obtain ⟨deeds, trail⟩ := ih
      exact ⟨_, trail.turn can⟩
  | await run le may ih =>
      obtain ⟨deeds, trail⟩ := ih
      exact ⟨_, trail.await le may⟩
  | call run may ih =>
      obtain ⟨deeds, trail⟩ := ih
      exact ⟨_, trail.call may⟩

theorem Trail.mono (h : Trail p pace calls first deeds c) (hpace : ∀ c t, pace c t → pace' c t)
    (hcalls : ∀ t, calls t → calls' t) : Trail p pace' calls' first deeds c := by
  induction h with
  | begin => exact .begin
  | turn trail can ih => exact ih.turn can
  | await trail le may ih => exact ih.await le (hpace _ _ may)
  | call trail may ih => exact ih.call (hcalls _ may)

theorem Trail.trans (h : Trail p pace calls first deeds c) (h' : Trail p pace calls c deeds' c') :
    Trail p pace calls first (deeds ++ deeds') c' := by
  induction h' with
  | begin =>
      rw [List.append_nil]
      exact h
  | turn trail can ih =>
      rw [← List.append_assoc]
      exact ih.turn can
  | await trail le may ih => exact ih.await le may
  | call trail may ih => exact ih.call may

/-- Who has come to an end in some turn is still there, and that turn is past. -/
theorem Trail.ended (h : Trail p pace calls first deeds c) :
    ∀ d ∈ deeds, p.isFinished d.turn.task = true →
      d.time ≤ c.now ∧ c.tasks[d.key]? = some d.turn.task := by
  induction h with
  | begin =>
      intro d hd
      cases hd
  | @turn deeds c key task trail can ih =>
      intro d hd hend
      rcases List.mem_append.1 hd with hold | hnew
      · obtain ⟨hle, hkey⟩ := ih d hold hend
        refine ⟨hle, getElem?_after_of_ne (fun hsame => ?_) hkey⟩
        rw [hsame, can.here] at hkey
        rw [← Option.some.inj hkey, can.unfinished] at hend
        cases hend
      · obtain rfl := List.mem_singleton.1 hnew
        exact ⟨Nat.le_refl _, getElem?_after_self can.here⟩
  | await trail le may ih =>
      intro d hd hend
      obtain ⟨hle, hkey⟩ := ih d hd hend
      exact ⟨Nat.le_trans hle le, hkey⟩
  | call trail may ih =>
      intro d hd hend
      obtain ⟨hle, hkey⟩ := ih d hd hend
      exact ⟨hle, getElem?_call_of_some hkey⟩

/-- The turns of the given tasks and the crowd after them, if these can go on one after the other. -/
def retrace? (p : Process σ τ) : List TaskKey → Crowd σ τ → Option (List (Deed σ τ) × Crowd σ τ)
  | [], c => some ([], c)
  | key :: keys, c =>
    match c.tasks[key]?, c.next? p key with
    | some task, some c' =>
      (retrace? p keys c').map fun (deeds, last) => (c.deed p key task :: deeds, last)
    | _, _ => none

/-- What can be done turn by turn is a trail. -/
theorem trail_of_retrace? {keys : List TaskKey} (h : c.retrace? p keys = some (deeds, c')) :
    Trail p pace calls c deeds c' := by
  induction keys generalizing c deeds with
  | nil =>
      cases h
      exact .begin
  | cons key keys ih =>
      simp only [retrace?] at h
      split at h
      · next task mid htask hnext =>
        obtain ⟨⟨deeds', last⟩, hrest, heq⟩ := Option.map_eq_some_iff.1 h
        cases heq
        obtain ⟨task', can, rfl⟩ := canGo_of_next? hnext
        obtain rfl := Option.some.inj (htask.symm.trans can.here)
        exact (Trail.begin.turn can).trans (ih hrest)
      · cases h

end Crowd

end Reachability
