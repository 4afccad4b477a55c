import Reachability.Schedule

set_option autoImplicit false

/-! # Permits

A fixed number of permits is handed out to tasks in the order in which they ask. A permit that is
given back goes to the next task in line. A single permit makes a lock. -/

namespace Reachability

/-- Permits, those who have one and those who wait for one. -/
structure Permits where
  /-- The number of permits that nobody has. -/
  free : Nat
  /-- The tasks that have a permit. -/
  holders : List TaskKey
  /-- The tasks that wait for a permit, the first one first. -/
  waiting : List TaskKey
  deriving DecidableEq

namespace Permits

/-- A number of permits that nobody has. -/
def ofNat (n : Nat) : Permits := ⟨n, [], []⟩

/-- A single permit. -/
def lock : Permits := ofNat 1

/-- The number of permits in all. -/
def total (p : Permits) : Nat := p.free + p.holders.length

/-- Whether a task has a permit. -/
def holds (p : Permits) (key : TaskKey) : Bool := p.holders.contains key

/-- A task asks for a permit: it gets one that is free, or takes its place in line. -/
def request (p : Permits) (key : TaskKey) : Permits :=
  if 0 < p.free ∧ p.waiting = [] then
    { p with free := p.free - 1, holders := p.holders ++ [key] }
  else { p with waiting := p.waiting ++ [key] }

/-- A task that has a permit gives it back. -/
def release (p : Permits) (key : TaskKey) : Permits :=
  if p.holds key then
    match p.waiting with
    | [] => { p with free := p.free + 1, holders := p.holders.erase key }
    | next :: rest => { p with holders := p.holders.erase key ++ [next], waiting := rest }
  else p

/-- A task gives up its place in line. -/
def leave (p : Permits) (key : TaskKey) : Permits := { p with waiting := p.waiting.erase key }

/-! ## No permit gets lost, and none is added -/

@[simp] theorem total_ofNat (n : Nat) : (ofNat n).total = n := rfl

@[simp] theorem total_request (p : Permits) (key : TaskKey) : (p.request key).total = p.total := by
  unfold request
  split
  · next h =>
    have := h.1
    simp only [total, List.length_append, List.length_singleton]
    omega
  · rfl

@[simp] theorem total_release (p : Permits) (key : TaskKey) : (p.release key).total = p.total := by
  unfold release
  split
  · next h =>
    have hm : key ∈ p.holders := by simpa [holds] using h
    have hl := List.length_erase_of_mem hm
    have hpos := List.length_pos_of_mem hm
    split
    · simp only [total, hl]
      omega
    · simp only [total, List.length_append, List.length_singleton, hl]
      omega
  · rfl

@[simp] theorem total_leave (p : Permits) (key : TaskKey) : (p.leave key).total = p.total := rfl

end Permits

end Reachability
