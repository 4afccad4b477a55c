import Mathlib.Algebra.Ring.Nat
import Reachability.Schedule

set_option autoImplicit false

/-! # Any order of turns

A crowd is a number of tasks that share a state, without an order: in a run of a crowd, any task
that can go on takes the next turn, time passes, and callers start more tasks. What holds of every
run of a crowd holds however tasks are scheduled. `Schedule.run` is one way to do that: whatever it
does is a run of a crowd in which time passes only when no task can go on (`Mirrors.run`). -/

namespace Reachability

/-- Tasks that share a state, each under its number. Those at their end stay in the list. -/
structure Crowd (σ τ : Type) where
  /-- The time. -/
  now : Nat
  /-- What the tasks share. -/
  shared : σ
  /-- The tasks, by number. -/
  tasks : List τ

namespace Crowd

variable {σ τ : Type}

/-- Whether a task of a crowd is at some stage and can go on from there. -/
structure CanGo (p : Process σ τ) (c : Crowd σ τ) (key : TaskKey) (task : τ) : Prop where
  here : c.tasks[key]? = some task
  unfinished : p.isFinished task = false
  ready : p.wait c.now key c.shared task = .nothing ∨ p.wait c.now key c.shared task = .disk

/-- The crowd after a task has done something. -/
def after (c : Crowd σ τ) (key : TaskKey) (t : Turn σ τ) : Crowd σ τ :=
  ⟨c.now, t.shared, c.tasks.set key t.task ++ t.started⟩

/-- The crowd after a task has had a turn. -/
def turn (p : Process σ τ) (c : Crowd σ τ) (key : TaskKey) (task : τ) : Crowd σ τ :=
  c.after key (p.step c.now key c.tasks.length c.shared task)

/-- The crowd at a later time. -/
def await (c : Crowd σ τ) (later : Nat) : Crowd σ τ := { c with now := later }

/-- The crowd with one more task. -/
def call (c : Crowd σ τ) (task : τ) : Crowd σ τ := { c with tasks := c.tasks ++ [task] }

/-- The runs of a crowd, with the number of turns taken: `pace` says which times may come next, and
    `calls` which tasks callers may start. -/
inductive Run (p : Process σ τ) (pace : Crowd σ τ → Nat → Prop) (calls : τ → Prop)
    (first : Crowd σ τ) : Nat → Crowd σ τ → Prop
  | begin : Run p pace calls first 0 first
  | turn {n : Nat} {c : Crowd σ τ} {key : TaskKey} {task : τ}
      (run : Run p pace calls first n c) (can : c.CanGo p key task) :
      Run p pace calls first (n + 1) (c.turn p key task)
  | await {n : Nat} {c : Crowd σ τ} {later : Nat} (run : Run p pace calls first n c)
      (le : c.now ≤ later) (may : pace c later) : Run p pace calls first n (c.await later)
  | call {n : Nat} {c : Crowd σ τ} {task : τ} (run : Run p pace calls first n c)
      (may : calls task) : Run p pace calls first n (c.call task)

/-- Time may pass at any moment. -/
def anyTime (_ : Crowd σ τ) (_ : Nat) : Prop := True

/-- Time passes only when all tasks wait for it or for each other, and never beyond a time that one
    of them waits for. -/
def Urgent (p : Process σ τ) (c : Crowd σ τ) (later : Nat) : Prop :=
  ∀ key task, c.tasks[key]? = some task → p.isFinished task = false →
    ∃ due, p.wait c.now key c.shared task = .change due ∧ ∀ t, due = some t → later ≤ t

/-- No task is started by a caller. -/
def noCall (_ : τ) : Prop := False

/-- No task can go on any more, however long it waits. -/
def Still (p : Process σ τ) (c : Crowd σ τ) : Prop :=
  ∀ later, c.now ≤ later → ∀ key task, ¬ (c.await later).CanGo p key task

variable {p : Process σ τ} {pace pace' : Crowd σ τ → Nat → Prop} {calls calls' : τ → Prop}
  {first c c' : Crowd σ τ} {n m : Nat}

/-- A task that waits for a change cannot go on. -/
theorem CanGo.wait_ne {key : TaskKey} {task : τ} (can : c.CanGo p key task) (due : Option Nat) :
    p.wait c.now key c.shared task ≠ .change due := by
  intro hwait
  rcases can.ready with hready | hready <;> cases hwait.symm.trans hready

/-- A task that waits until something holds goes on only if it does. -/
theorem CanGo.of_wait {key : TaskKey} {task : τ} {P : Prop} [Decidable P] {due : Option Nat}
    (can : c.CanGo p key task)
    (hwait : p.wait c.now key c.shared task = if P then .nothing else .change due) : P := by
  by_contra hnot
  rw [if_neg hnot] at hwait
  exact can.wait_ne due hwait

theorem Run.trans (h : Run p pace calls first n c) (h' : Run p pace calls c m c') :
    Run p pace calls first (n + m) c' := by
  induction h' with
  | begin => exact h
  | turn run can ih => exact ih.turn can
  | await run le may ih => exact ih.await le may
  | call run may ih => exact ih.call may

theorem Run.mono (h : Run p pace calls first n c) (hpace : ∀ c t, pace c t → pace' c t)
    (hcalls : ∀ t, calls t → calls' t) : Run p pace' calls' first n c := by
  induction h with
  | begin => exact .begin
  | turn run can ih => exact ih.turn can
  | await run le may ih => exact ih.await le (hpace _ _ may)
  | call run may ih => exact ih.call (hcalls _ may)

/-! ## Runs turn by turn -/

section Play

/-- The crowd after a turn of a task, if that can go on. -/
def next? (p : Process σ τ) (key : TaskKey) (c : Crowd σ τ) : Option (Crowd σ τ) :=
  match c.tasks[key]? with
  | some task =>
    if p.isFinished task = false ∧ (p.wait c.now key c.shared task = .nothing ∨
        p.wait c.now key c.shared task = .disk) then some (c.turn p key task)
    else none
  | none => none

/-- The crowd after turns of the given tasks, if these can go on one after the other. -/
def play? (p : Process σ τ) : List TaskKey → Crowd σ τ → Option (Crowd σ τ)
  | [], c => some c
  | key :: keys, c => (c.next? p key).bind (play? p keys)

theorem canGo_of_next? {key : TaskKey} (h : c.next? p key = some c') :
    ∃ task, c.CanGo p key task ∧ c' = c.turn p key task := by
  unfold Crowd.next? at h
  split at h
  · next task htask =>
    split at h
    · next hgo =>
      cases h
      exact ⟨task, ⟨htask, hgo.1, hgo.2⟩, rfl⟩
    · cases h
  · cases h

theorem Run.next? (run : Run p pace calls first n c) {key : TaskKey}
    (h : c.next? p key = some c') : Run p pace calls first (n + 1) c' := by
  obtain ⟨task, can, rfl⟩ := canGo_of_next? h
  exact run.turn can

theorem Run.play? (run : Run p pace calls first n c) {keys : List TaskKey}
    (h : c.play? p keys = some c') : ∃ n, Run p pace calls first n c' := by
  induction keys generalizing n c with
  | nil =>
      cases h
      exact ⟨n, run⟩
  | cons key keys ih =>
      obtain ⟨mid, hnext, hplay⟩ := Option.bind_eq_some_iff.1 h
      exact ih (run.next? hnext) hplay

theorem next?_now {key : TaskKey} (h : c.next? p key = some c') : c'.now = c.now := by
  obtain ⟨task, -, rfl⟩ := canGo_of_next? h
  rfl

/-- Time stands still while turns are taken. -/
theorem play?_now {keys : List TaskKey} (h : c.play? p keys = some c') : c'.now = c.now := by
  induction keys generalizing c with
  | nil =>
      cases h
      rfl
  | cons key keys ih =>
      obtain ⟨mid, hnext, hplay⟩ := Option.bind_eq_some_iff.1 h
      exact (ih hplay).trans (next?_now hnext)

/-- Whether time can pass, and all tasks wait at least up to a time. -/
def isUrgent (p : Process σ τ) (c : Crowd σ τ) (later : Nat) : Bool :=
  c.tasks.zipIdx.all fun (task, key) => p.isFinished task ||
    match p.wait c.now key c.shared task with
    | .change due => due.all (later ≤ ·)
    | _ => false

theorem urgent_of_isUrgent {later : Nat} (h : c.isUrgent p later = true) : Urgent p c later := by
  intro key task hkey going
  have htask := List.all_eq_true.1 h (task, key) (List.mem_zipIdx_iff_getElem?.2 hkey)
  simp only [going, Bool.false_or] at htask
  split at htask
  · next due hwait =>
    refine ⟨due, hwait, fun t ht => ?_⟩
    rw [ht] at htask
    exact of_decide_eq_true htask
  · cases htask

end Play

/-! ## The tasks after a turn -/

section Tasks

variable {key other : TaskKey} {task a : τ} {t : Turn σ τ}

theorem getElem?_after_self (h : c.tasks[key]? = some task) :
    (c.after key t).tasks[key]? = some t.task := by
  have hlt := (List.getElem?_eq_some_iff.1 h).1
  show (c.tasks.set key _ ++ _)[key]? = _
  rw [List.getElem?_append_left (by rwa [List.length_set]), List.getElem?_set_self hlt]

theorem getElem?_after_of_ne (hne : other ≠ key) (h : c.tasks[other]? = some a) :
    (c.after key t).tasks[other]? = some a := by
  have hlt := (List.getElem?_eq_some_iff.1 h).1
  show (c.tasks.set key _ ++ _)[other]? = _
  rw [List.getElem?_append_left (by rwa [List.length_set]), List.getElem?_set_ne hne.symm, h]

theorem getElem?_after_started (i : Nat) :
    (c.after key t).tasks[c.tasks.length + i]? = t.started[i]? := by
  show (c.tasks.set key _ ++ _)[c.tasks.length + i]? = _
  rw [List.getElem?_append_right (by rw [List.length_set]; exact Nat.le_add_right ..),
    List.length_set, Nat.add_sub_cancel_left]

theorem getElem?_after_alone (hne : other ≠ key) (hnone : t.started = []) :
    (c.after key t).tasks[other]? = c.tasks[other]? := by
  show (c.tasks.set key _ ++ t.started)[other]? = _
  rw [hnone, List.append_nil, List.getElem?_set_ne hne.symm]

/-- A task is afterwards the one that did something, or another one, or has just been started. -/
theorem getElem?_after (hkey : c.tasks[key]? = some task)
    (h : (c.after key t).tasks[other]? = some a) :
    (other = key ∧ a = t.task) ∨ (other ≠ key ∧ c.tasks[other]? = some a) ∨
      ∃ i, other = c.tasks.length + i ∧ t.started[i]? = some a := by
  by_cases hlt : other < c.tasks.length
  · by_cases hne : other = key
    · subst hne
      rw [getElem?_after_self hkey] at h
      exact .inl ⟨rfl, (Option.some.inj h).symm⟩
    · rw [getElem?_after_of_ne hne (List.getElem?_eq_getElem hlt)] at h
      exact .inr (.inl ⟨hne, by rw [List.getElem?_eq_getElem hlt, h]⟩)
  · obtain ⟨i, rfl⟩ := Nat.exists_eq_add_of_le (Nat.le_of_not_lt hlt)
    rw [getElem?_after_started] at h
    exact .inr (.inr ⟨i, rfl, h⟩)

/-- What is true of all tasks stays so if it is true of the task afterwards and of new ones. -/
theorem forall_after {P : τ → Prop} (hkey : c.tasks[key]? = some task)
    (h : ∀ (k : TaskKey) a, c.tasks[k]? = some a → P a) (self : P t.task)
    (started : ∀ a ∈ t.started, P a) :
    ∀ (k : TaskKey) a, (c.after key t).tasks[k]? = some a → P a := by
  intro k a ha
  rcases getElem?_after hkey ha with ⟨-, rfl⟩ | ⟨-, hold⟩ | ⟨i, -, hnew⟩
  · exact self
  · exact h k a hold
  · exact started a (List.mem_of_getElem? hnew)

/-- What is read off the tasks stays the same if the turn does not change it and new tasks have
    nothing of it. -/
theorem bind_after {β : Type} (f : τ → Option β) (hkey : c.tasks[key]? = some task)
    (self : f t.task = f task) (started : ∀ a ∈ t.started, f a = none) (other : TaskKey) :
    (c.after key t).tasks[other]?.bind f = c.tasks[other]?.bind f := by
  by_cases hlt : other < c.tasks.length
  · by_cases hne : other = key
    · subst hne
      rw [getElem?_after_self hkey, hkey, Option.bind_some, Option.bind_some, self]
    · rw [getElem?_after_of_ne hne (List.getElem?_eq_getElem hlt), List.getElem?_eq_getElem hlt]
  · obtain ⟨i, rfl⟩ := Nat.exists_eq_add_of_le (Nat.le_of_not_lt hlt)
    rw [getElem?_after_started, List.getElem?_eq_none (Nat.le_add_right ..), Option.bind_none]
    cases hi : t.started[i]? with
    | none => rfl
    | some a => exact started a (List.mem_of_getElem? hi)

/-- What all tasks have is what they had, if the turn does not change it, and what new tasks
    have. -/
theorem filterMap_after {β : Type} (f : τ → Option β) (hkey : c.tasks[key]? = some task)
    (self : f t.task = f task) :
    (c.after key t).tasks.filterMap f = c.tasks.filterMap f ++ t.started.filterMap f := by
  obtain ⟨hlt, htask⟩ := List.getElem?_eq_some_iff.1 hkey
  have hmap : (c.tasks.set key t.task).map f = c.tasks.map f := by
    rw [List.map_set, self, ← htask, ← List.getElem_map f (h := by rwa [List.length_map])]
    exact List.set_getElem_self _
  have hsame : ∀ l : List τ, l.filterMap f = (l.map f).filterMap id := fun l => by
    rw [List.filterMap_map]
    rfl
  show (c.tasks.set key t.task ++ t.started).filterMap f = _
  rw [List.filterMap_append, hsame (c.tasks.set key t.task), hmap, ← hsame]

/-- How many tasks there are of a kind stays the same if no task becomes, or starts, one of it. -/
theorem countP_after (P : τ → Bool) (hkey : c.tasks[key]? = some task) (self : P t.task = P task)
    (started : ∀ a ∈ t.started, P a = false) :
    (c.after key t).tasks.countP P = c.tasks.countP P := by
  obtain ⟨hlt, htask⟩ := List.getElem?_eq_some_iff.1 hkey
  have hnone : t.started.countP P = 0 := List.countP_eq_zero.2 fun a ha => by
    rw [started a ha]
    exact Bool.false_ne_true
  show (c.tasks.set key t.task ++ t.started).countP P = _
  rw [List.countP_append, hnone, List.countP_set hlt, htask, self]
  split
  · next hP =>
    have hpos := List.countP_pos_iff.2 ⟨task, List.mem_of_getElem? hkey, hP⟩
    omega
  · rfl

/-- A task after a call is the one that was called, or was there before. -/
theorem getElem?_call {other : TaskKey} {a : τ} (h : (c.call task).tasks[other]? = some a) :
    (other = c.tasks.length ∧ a = task) ∨ c.tasks[other]? = some a := by
  by_cases hlt : other < c.tasks.length
  · have hleft : (c.call task).tasks[other]? = c.tasks[other]? := List.getElem?_append_left hlt
    exact .inr (hleft ▸ h)
  · have hright : (c.call task).tasks[other]? = [task][other - c.tasks.length]? :=
      List.getElem?_append_right (Nat.le_of_not_lt hlt)
    rw [hright, List.getElem?_singleton] at h
    split at h
    · next hzero =>
      have hle := Nat.sub_eq_zero_iff_le.1 hzero
      exact .inl ⟨Nat.le_antisymm hle (Nat.le_of_not_lt hlt), (Option.some.inj h).symm⟩
    · cases h

theorem getElem?_call_of_some {other : TaskKey} {a : τ} (h : c.tasks[other]? = some a) :
    (c.call task).tasks[other]? = some a := by
  have hlt := (List.getElem?_eq_some_iff.1 h).1
  exact (List.getElem?_append_left hlt).trans h

/-- Another task is what it was, if new tasks are not that. -/
theorem any_after (P : τ → Bool) (hne : other ≠ key) (started : ∀ a ∈ t.started, P a = false) :
    (c.after key t).tasks[other]?.any P = c.tasks[other]?.any P := by
  by_cases hlt : other < c.tasks.length
  · rw [getElem?_after_of_ne hne (List.getElem?_eq_getElem hlt), List.getElem?_eq_getElem hlt]
  · obtain ⟨i, rfl⟩ := Nat.exists_eq_add_of_le (Nat.le_of_not_lt hlt)
    rw [getElem?_after_started, List.getElem?_eq_none (Nat.le_add_right ..), Option.any_none]
    cases hi : t.started[i]? with
    | none => rfl
    | some a => exact started a (List.mem_of_getElem? hi)

/-- What is read off the tasks stays the same if the task that is called has nothing of it. -/
theorem bind_call {β : Type} (f : τ → Option β) (fresh : f task = none) (other : TaskKey) :
    (c.call task).tasks[other]?.bind f = c.tasks[other]?.bind f := by
  cases h : (c.call task).tasks[other]? with
  | none =>
      have hnone : c.tasks[other]? = none := by
        rw [List.getElem?_eq_none_iff] at h ⊢
        exact Nat.le_trans (Nat.le_add_right ..) (List.length_append ▸ h)
      rw [hnone]
  | some a =>
      rcases getElem?_call h with ⟨rfl, rfl⟩ | hold
      · rw [Option.bind_some, fresh, List.getElem?_eq_none (Nat.le_refl _), Option.bind_none]
      · rw [hold]

theorem any_call (P : τ → Bool) (fresh : P task = false) (other : TaskKey) :
    (c.call task).tasks[other]?.any P = c.tasks[other]?.any P := by
  have hguard := bind_call (c := c) (Option.guard (P ·)) (Option.guard_eq_none_iff.2 fresh) other
  have hany : ∀ o : Option τ, o.any P = (o.bind (Option.guard (P ·))).isSome := by
    intro o
    cases o <;> simp
  rw [hany, hany, hguard]

end Tasks

/-! ## Sums over the tasks -/

section Total

/-- A number for each task, summed up. -/
def total (f : τ → Nat) (c : Crowd σ τ) : Nat := (c.tasks.map f).sum

variable {key : TaskKey} {task a : τ} {t : Turn σ τ} (f : τ → Nat)

theorem sum_set {l : List τ} {i : Nat} (h : l[i]? = some task) (a : τ) :
    ((l.set i a).map f).sum + f task = (l.map f).sum + f a := by
  induction l generalizing i with
  | nil => cases h
  | cons b l ih =>
      cases i with
      | zero =>
          obtain rfl : b = task := Option.some.inj h
          simp only [List.set_cons_zero, List.map_cons, List.sum_cons]
          omega
      | succ i =>
          have hrest := ih (i := i) h
          simp only [List.set_cons_succ, List.map_cons, List.sum_cons]
          omega

theorem total_after (hkey : c.tasks[key]? = some task) :
    (c.after key t).total f + f task = c.total f + f t.task + (t.started.map f).sum := by
  have hset := sum_set f hkey t.task
  show ((c.tasks.set key t.task ++ t.started).map f).sum + f task = _
  rw [List.map_append, List.sum_append_nat, total]
  omega

theorem total_call : (c.call a).total f = c.total f + f a := by
  show ((c.tasks ++ [a]).map f).sum = _
  rw [List.map_append, List.sum_append_nat, List.map_singleton, List.sum_singleton]
  rfl

theorem le_total (hkey : c.tasks[key]? = some task) : f task ≤ c.total f := by
  obtain ⟨hlt, hget⟩ := List.getElem?_eq_some_iff.1 hkey
  have hdrop : c.tasks.drop key = task :: c.tasks.drop (key + 1) := by
    rw [List.drop_eq_getElem_cons hlt, hget]
  rw [total, ← List.take_append_drop key c.tasks, hdrop, List.map_append, List.sum_append_nat,
    List.map_cons, List.sum_cons]
  omega

theorem total_eq_zero (h : ∀ (key : TaskKey) a, c.tasks[key]? = some a → f a = 0) :
    c.total f = 0 := by
  rw [total, List.sum_eq_zero_iff_forall_eq_nat]
  intro n hn
  obtain ⟨a, ha, rfl⟩ := List.mem_map.1 hn
  obtain ⟨key, hkey⟩ := List.getElem?_of_mem ha
  exact h key a hkey

end Total

end Crowd

/-! ## Schedules are runs -/

/-- A process that waits for no time that has come, and starts no task at its end. -/
structure Process.Regular {σ τ : Type} (p : Process σ τ) : Prop where
  due : ∀ now key w task t, p.wait now key w task = .change (some t) → now ≤ t
  started : ∀ now key next w task, ∀ a ∈ (p.step now key next w task).started,
    p.isFinished a = false

namespace Schedule

variable {σ τ : Type}

/-- A schedule and a crowd with the same tasks. -/
structure Mirrors (p : Process σ τ) (s : Schedule σ τ) (c : Crowd σ τ) : Prop where
  now : s.now = c.now
  shared : s.shared = c.shared
  nextKey : s.nextKey = c.tasks.length
  slots : ∀ slot ∈ s.slots, c.tasks[slot.key]? = some slot.task ∧ p.isFinished slot.task = false
  all : ∀ key task, c.tasks[key]? = some task → p.isFinished task = false →
    ∃ slot ∈ s.slots, slot.key = key
  finished : ∀ e ∈ s.finished, c.tasks[e.1]? = some e.2 ∧ p.isFinished e.2 = true

variable {p : Process σ τ} {s s' : Schedule σ τ} {c : Crowd σ τ}

theorem mem_of_slot? {key : TaskKey} {slot : Slot τ} (h : s.slot? key = some slot) :
    slot ∈ s.slots ∧ slot.key = key := by
  refine ⟨List.mem_of_find?_eq_some h, ?_⟩
  have hkey := List.find?_some h
  exact eq_of_beq hkey

namespace Mirrors

/-- Whose turn it is does not matter. -/
theorem congr (h : Mirrors p s c) (now : s'.now = s.now) (shared : s'.shared = s.shared)
    (nextKey : s'.nextKey = s.nextKey) (slots : s'.slots = s.slots)
    (finished : ∀ e ∈ s'.finished, e ∈ s.finished) : Mirrors p s' c where
  now := now.trans h.now
  shared := shared.trans h.shared
  nextKey := nextKey.trans h.nextKey
  slots := slots ▸ h.slots
  all := slots ▸ h.all
  finished e he := h.finished e (finished e he)

theorem waitOf_eq (h : Mirrors p s c) (slot : Slot τ) :
    s.waitOf p slot = p.wait c.now slot.key c.shared slot.task := by
  rw [waitOf, h.now, h.shared]

theorem canGo (h : Mirrors p s c) {slot : Slot τ} (hmem : slot ∈ s.slots)
    (hwait : s.waitOf p slot = .nothing ∨ s.waitOf p slot = .disk) :
    c.CanGo p slot.key slot.task := by
  rw [h.waitOf_eq] at hwait
  exact ⟨(h.slots slot hmem).1, (h.slots slot hmem).2, hwait⟩

theorem eq_of_key (h : Mirrors p s c) {slot slot' : Slot τ} (hmem : slot ∈ s.slots)
    (hmem' : slot' ∈ s.slots) (hkey : slot.key = slot'.key) : slot.task = slot'.task := by
  have heq := (h.slots slot hmem).1
  rw [hkey, (h.slots slot' hmem').1] at heq
  exact (Option.some.inj heq).symm

theorem add (h : Mirrors p s c) (tasks : List τ) (hnew : ∀ t ∈ tasks, p.isFinished t = false) :
    Mirrors p (s.add tasks) { c with tasks := c.tasks ++ tasks } := by
  have hold : ∀ {key : TaskKey} {a : τ}, c.tasks[key]? = some a →
      (c.tasks ++ tasks)[key]? = some a := fun ha => by
    rw [List.getElem?_append_left (List.getElem?_eq_some_iff.1 ha).1, ha]
  refine ⟨h.now, h.shared, ?_, ?_, ?_, fun e he =>
    ⟨hold (h.finished e he).1, (h.finished e he).2⟩⟩
  · show s.nextKey + tasks.length = (c.tasks ++ tasks).length
    rw [h.nextKey, List.length_append]
  · intro slot hslot
    rcases List.mem_append.1 hslot with hslot | hslot
    · exact ⟨hold (h.slots slot hslot).1, (h.slots slot hslot).2⟩
    · obtain ⟨⟨t, i⟩, hmem, rfl⟩ := List.mem_map.1 hslot
      have ht : tasks[i]? = some t := List.mem_zipIdx_iff_getElem?.1 hmem
      refine ⟨?_, hnew t (List.mem_of_getElem? ht)⟩
      show (c.tasks ++ tasks)[s.nextKey + i]? = some t
      rw [h.nextKey, List.getElem?_append_right (Nat.le_add_right ..), Nat.add_sub_cancel_left, ht]
  · intro key task hkey hunfinished
    by_cases hlt : key < c.tasks.length
    · rw [List.getElem?_append_left hlt] at hkey
      obtain ⟨slot, hslot, hkey⟩ := h.all key task hkey hunfinished
      exact ⟨slot, List.mem_append_left _ hslot, hkey⟩
    · obtain ⟨i, rfl⟩ := Nat.exists_eq_add_of_le (Nat.le_of_not_lt hlt)
      rw [List.getElem?_append_right (Nat.le_add_right ..), Nat.add_sub_cancel_left] at hkey
      refine ⟨⟨s.nextKey + i, s.nextStamp + i, task⟩, List.mem_append_right _ ?_, ?_⟩
      · exact List.mem_map.2 ⟨(task, i), List.mem_zipIdx_iff_getElem?.2 hkey, rfl⟩
      · show s.nextKey + i = _
        rw [h.nextKey]

/-- A task is put back after its turn: among the others, or among those at their end. -/
theorem put (h : Mirrors p s c) {slot : Slot τ} (hmem : slot ∈ s.slots) {shared : σ} {task : τ}
    (now : s'.now = s.now) (hshared : s'.shared = shared) (nextKey : s'.nextKey = s.nextKey)
    (stamp : Nat)
    (slots : s'.slots = s.slots.filter (fun o => o.key != slot.key) ++
      if p.isFinished task = true then [] else [⟨slot.key, stamp, task⟩])
    (finished : s'.finished = if p.isFinished task = true then (slot.key, task) :: s.finished
      else s.finished) :
    Mirrors p s' ⟨c.now, shared, c.tasks.set slot.key task⟩ := by
  obtain ⟨hslot, hunfinished⟩ := h.slots slot hmem
  have hlt := (List.getElem?_eq_some_iff.1 hslot).1
  have hself : (c.tasks.set slot.key task)[slot.key]? = some task := List.getElem?_set_self hlt
  have hother : ∀ {key : TaskKey} {a : τ}, key ≠ slot.key → c.tasks[key]? = some a →
      (c.tasks.set slot.key task)[key]? = some a := fun hne ha => by
    rw [List.getElem?_set_ne hne.symm, ha]
  refine ⟨now.trans h.now, hshared, ?_, ?_, ?_, ?_⟩
  · show s'.nextKey = (c.tasks.set slot.key task).length
    rw [nextKey, h.nextKey, List.length_set]
  · intro a ha
    rw [slots] at ha
    rcases List.mem_append.1 ha with ha | ha
    · obtain ⟨ha, hne⟩ := List.mem_filter.1 ha
      exact ⟨hother (bne_iff_ne.1 hne) (h.slots a ha).1, (h.slots a ha).2⟩
    · split at ha
      · cases ha
      · next hgoing =>
        rw [List.mem_singleton.1 ha]
        exact ⟨hself, Bool.eq_false_iff.2 hgoing⟩
  · intro key a ha hgoing
    rw [slots]
    by_cases hne : key = slot.key
    · subst hne
      rw [hself] at ha
      cases ha
      rw [if_neg (Bool.eq_false_iff.1 hgoing)]
      exact ⟨_, List.mem_append_right _ (List.mem_singleton_self _), rfl⟩
    · rw [List.getElem?_set_ne (Ne.symm hne)] at ha
      obtain ⟨o, ho, hkey⟩ := h.all key a ha hgoing
      refine ⟨o, List.mem_append_left _ (List.mem_filter.2 ⟨ho, ?_⟩), hkey⟩
      rw [bne_iff_ne, hkey]
      exact hne
  · intro e he
    have hold : ∀ e ∈ s.finished, (c.tasks.set slot.key task)[e.1]? = some e.2 ∧
        p.isFinished e.2 = true := by
      intro e he
      obtain ⟨ha, hend⟩ := h.finished e he
      refine ⟨hother ?_ ha, hend⟩
      intro hkey
      rw [hkey, hslot] at ha
      rw [← Option.some.inj ha, hunfinished] at hend
      cases hend
    rw [finished] at he
    split at he
    · next hend =>
      rcases List.mem_cons.1 he with rfl | he
      · exact ⟨hself, hend⟩
      · exact hold e he
    · exact hold e he

theorem step (h : Mirrors p s c) (hp : p.Regular) {slot : Slot τ} (hmem : slot ∈ s.slots) :
    Mirrors p (s.step p slot) (c.turn p slot.key slot.task) := by
  have hturn : p.step s.now slot.key s.nextKey s.shared slot.task
      = p.step c.now slot.key c.tasks.length c.shared slot.task := by
    rw [h.now, h.nextKey, h.shared]
  have hstarted := hp.started c.now slot.key c.tasks.length c.shared slot.task
  unfold Schedule.step Crowd.turn
  rw [hturn]
  refine add (c := ⟨c.now, _, c.tasks.set slot.key _⟩) ?_ _ hstarted
  refine h.put hmem ?_ ?_ ?_ s.nextStamp ?_ ?_ <;> dsimp only <;> split <;> simp

/-! ## What a schedule does next -/

theorem refresh (h : Mirrors p s c) : Mirrors p (s.refresh p) c :=
  h.congr rfl rfl rfl rfl fun _ he => he

theorem mem_of_continuing? {slot : Slot τ} (h : s.continuing? p = some slot) :
    slot ∈ s.slots ∧ s.waitOf p slot = .nothing := by
  obtain ⟨hslot, hready⟩ := Option.filter_eq_some_iff.1 h
  obtain ⟨key, -, hkey⟩ := Option.bind_eq_some_iff.1 hslot
  exact ⟨(mem_of_slot? hkey).1, eq_of_beq hready⟩

/-- What is in the queue after a look at all tasks can go on. -/
theorem of_mem_queue {key : TaskKey} (h : key ∈ (s.refresh p).queue) :
    ∃ slot ∈ s.slots, slot.key = key ∧ s.waitOf p slot = .nothing := by
  have hable : ∀ k ∈ ((s.slots.filter (s.isReady p)).mergeSort
      fun a b => a.stamp ≤ b.stamp).map (·.key),
      ∃ slot ∈ s.slots, slot.key = k ∧ s.waitOf p slot = .nothing := by
    intro k hk
    obtain ⟨slot, hslot, rfl⟩ := List.mem_map.1 hk
    obtain ⟨hmem, hready⟩ := List.mem_filter.1 (List.mem_mergeSort.1 hslot)
    exact ⟨slot, hmem, rfl, eq_of_beq hready⟩
  rcases List.mem_append.1 h with h | h
  · exact hable key (List.contains_iff_mem.1 (List.mem_filter.1 h).2)
  · exact hable key (List.mem_filter.1 h).1

/-- A task that can go on has the turn or is in the queue. -/
theorem mem_queue {slot : Slot τ} (hmem : slot ∈ s.slots) (hready : s.waitOf p slot = .nothing)
    (hcurrent : s.current ≠ some slot.key) : slot.key ∈ (s.refresh p).queue := by
  have hable : slot.key ∈ ((s.slots.filter (s.isReady p)).mergeSort
      fun a b => a.stamp ≤ b.stamp).map (·.key) := by
    refine List.mem_map.2 ⟨slot, List.mem_mergeSort.2 (List.mem_filter.2 ⟨hmem, ?_⟩), rfl⟩
    rw [isReady, hready]
    rfl
  by_cases hold : slot.key ∈ s.queue.filter fun k => (((s.slots.filter (s.isReady p)).mergeSort
      fun a b => a.stamp ≤ b.stamp).map (·.key)).contains k
  · exact List.mem_append_left _ hold
  · refine List.mem_append_right _ (List.mem_filter.2 ⟨hable, ?_⟩)
    rw [Bool.and_eq_true, Bool.not_eq_true', bne_iff_ne]
    exact ⟨Bool.eq_false_iff.2 fun hc => hold (List.contains_iff_mem.1 hc), hcurrent⟩

theorem exists_slot? {slot : Slot τ} (hmem : slot ∈ s.slots) :
    ∃ slot', s.slot? slot.key = some slot' := by
  have hsome : (s.slot? slot.key).isSome := List.find?_isSome.2 ⟨slot, hmem, beq_self_eq_true _⟩
  exact Option.isSome_iff_exists.1 hsome

theorem mem_of_next? {slot : Slot τ} (h : (s.refresh p).next? = some slot)
    (hmirrors : Mirrors p s c) : slot ∈ s.slots ∧ s.waitOf p slot = .nothing := by
  obtain ⟨key, hkey, hslot⟩ := Option.bind_eq_some_iff.1 h
  have hqueue : key ∈ (s.refresh p).queue := by
    cases hfind : (s.refresh p).queue.find? fun key => some key != (s.refresh p).foreground with
    | some k =>
        rw [hfind] at hkey
        exact Option.some.inj hkey ▸ List.mem_of_find?_eq_some hfind
    | none =>
        rw [hfind] at hkey
        exact List.mem_of_mem_head? hkey
  obtain ⟨a, ha, rfl, hready⟩ := of_mem_queue hqueue
  obtain ⟨hmem, hsame⟩ := mem_of_slot? hslot
  refine ⟨hmem, ?_⟩
  rw [hmirrors.waitOf_eq, hsame, hmirrors.eq_of_key hmem ha hsame, ← hmirrors.waitOf_eq]
  exact hready

theorem mem_of_waitingForDisk? {slot : Slot τ} (h : s.waitingForDisk? p = some slot) :
    slot ∈ s.slots ∧ s.waitOf p slot = .disk := by
  obtain ⟨hmem, hdisk⟩ := List.mem_filter.1 (List.mem_mergeSort.1 (List.mem_of_mem_head? h))
  exact ⟨hmem, eq_of_beq hdisk⟩

/-- If nobody has the turn and nobody gets it, all tasks wait. -/
theorem waits (h : Mirrors p s c) (hcontinuing : (s.refresh p).continuing? p = none)
    (hnext : (s.refresh p).next? = none) (hdisk : (s.refresh p).waitingForDisk? p = none)
    {slot : Slot τ} (hmem : slot ∈ s.slots) : ∃ due, s.waitOf p slot = .change due := by
  cases hwait : s.waitOf p slot with
  | change due => exact ⟨due, rfl⟩
  | disk =>
      have hsorted : slot ∈ ((s.slots.filter fun slot => s.waitOf p slot == .disk).mergeSort
          fun a b => a.stamp ≤ b.stamp) := by
        refine List.mem_mergeSort.2 (List.mem_filter.2 ⟨hmem, ?_⟩)
        rw [hwait]
        rfl
      have hnil := List.head?_eq_none_iff.1 hdisk
      rw [show ((s.refresh p).slots.filter fun slot => (s.refresh p).waitOf p slot == .disk)
        = s.slots.filter fun slot => s.waitOf p slot == .disk from rfl] at hnil
      rw [hnil] at hsorted
      cases hsorted
  | nothing =>
      obtain ⟨slot', hslot'⟩ := exists_slot? hmem
      obtain ⟨hmem', hkey⟩ := mem_of_slot? hslot'
      have hwait' : s.waitOf p slot' = .nothing := by
        rw [h.waitOf_eq, hkey, h.eq_of_key hmem' hmem hkey, ← h.waitOf_eq, hwait]
      exfalso
      by_cases hcurrent : s.current = some slot.key
      · -- It has the turn.
        have hsome : (s.refresh p).continuing? p = some slot' := by
          refine Option.filter_eq_some_iff.2 ⟨Option.bind_eq_some_iff.2 ⟨_, hcurrent, hslot'⟩, ?_⟩
          exact beq_iff_eq.2 hwait'
        rw [hsome] at hcontinuing
        cases hcontinuing
      · -- It is in the queue, so somebody is next.
        have hqueue := mem_queue hmem hwait hcurrent
        unfold next? at hnext
        rw [Option.bind_eq_none_iff] at hnext
        have hsome : ∃ key ∈ (s.refresh p).queue,
            ((s.refresh p).queue.find? (fun key => some key != (s.refresh p).foreground) <|>
              (s.refresh p).queue.head?) = some key := by
          cases hfind :
            (s.refresh p).queue.find? fun key => some key != (s.refresh p).foreground with
          | some key => exact ⟨key, List.mem_of_find?_eq_some hfind, rfl⟩
          | none =>
              obtain ⟨key, rest, hcons⟩ := List.exists_cons_of_ne_nil (List.ne_nil_of_mem hqueue)
              rw [hcons]
              exact ⟨key, List.mem_cons_self .., rfl⟩
        obtain ⟨key, hkey, hfound⟩ := hsome
        obtain ⟨a, ha, rfl, -⟩ := of_mem_queue hkey
        obtain ⟨b, hb⟩ := exists_slot? ha
        have hnone : s.slot? a.key = none := hnext _ hfound
        rw [hb] at hnone
        cases hnone

/-- The next time that a task waits for is not later than any of them. -/
theorem urgent (h : Mirrors p s c) (hp : p.Regular)
    (hwaits : ∀ slot ∈ s.slots, ∃ due, s.waitOf p slot = .change due) {t : Nat}
    (ht : s.nextTime? p = some t) : c.now ≤ t ∧ Crowd.Urgent p c t := by
  obtain ⟨hmin, hle⟩ := List.min?_eq_some_iff.1 ht
  constructor
  · obtain ⟨slot, -, hslot⟩ := List.mem_filterMap.1 hmin
    split at hslot
    · next due hwait =>
      subst hslot
      rw [h.waitOf_eq] at hwait
      exact hp.due _ _ _ _ _ hwait
    · cases hslot
  · intro key task hkey hgoing
    obtain ⟨slot, hslot, rfl⟩ := h.all key task hkey hgoing
    obtain ⟨due, hwait⟩ := hwaits slot hslot
    have htask : slot.task = task := Option.some.inj ((h.slots slot hslot).1.symm.trans hkey)
    refine ⟨due, ?_, fun t' ht' => ?_⟩
    · rw [← htask, ← h.waitOf_eq, hwait]
    · refine hle t' (List.mem_filterMap.2 ⟨slot, hslot, ?_⟩)
      rw [hwait, ht']

theorem await (h : Mirrors p s c) {later : Nat} (now : s'.now = later)
    (shared : s'.shared = s.shared) (nextKey : s'.nextKey = s.nextKey) (slots : s'.slots = s.slots)
    (finished : s'.finished = s.finished) : Mirrors p s' (c.await later) where
  now := now
  shared := shared.trans h.shared
  nextKey := nextKey.trans h.nextKey
  slots := slots ▸ h.slots
  all := slots ▸ h.all
  finished := finished ▸ h.finished

/-- What a schedule does next is a turn of a task that can go on, or time passes because no task
    can. -/
theorem advance (h : Mirrors p s c) (hp : p.Regular) (hadvance : s.advance? p = some s') :
    (∃ key task, c.CanGo p key task ∧ Mirrors p s' (c.turn p key task)) ∨
      ∃ later, c.now ≤ later ∧ Crowd.Urgent p c later ∧ Mirrors p s' (c.await later) := by
  unfold advance? at hadvance
  dsimp only at hadvance
  have hr := h.refresh
  cases hcontinuing : (s.refresh p).continuing? p with
  | some slot =>
      rw [hcontinuing] at hadvance
      cases hadvance
      obtain ⟨hmem, hwait⟩ := mem_of_continuing? hcontinuing
      exact .inl ⟨_, _, hr.canGo hmem (.inl hwait), hr.step hp hmem⟩
  | none =>
      rw [hcontinuing] at hadvance
      cases hnext : (s.refresh p).next? with
      | some slot =>
          rw [hnext] at hadvance
          cases hadvance
          obtain ⟨hmem, hwait⟩ := mem_of_next? hnext h
          have hqueue : Mirrors p
              { s.refresh p with queue := (s.refresh p).queue.erase slot.key } c :=
            hr.congr rfl rfl rfl rfl fun _ he => he
          exact .inl ⟨_, _, h.canGo hmem (.inl hwait), hqueue.step hp hmem⟩
      | none =>
          rw [hnext] at hadvance
          cases hdisk : (s.refresh p).waitingForDisk? p with
          | some slot =>
              rw [hdisk] at hadvance
              cases hadvance
              obtain ⟨hmem, hwait⟩ := mem_of_waitingForDisk? hdisk
              exact .inl ⟨_, _, hr.canGo hmem (.inr hwait), hr.step hp hmem⟩
          | none =>
              rw [hdisk] at hadvance
              obtain ⟨t, ht, rfl⟩ := Option.map_eq_some_iff.1 hadvance
              obtain ⟨hle, hurgent⟩ := hr.urgent hp
                (fun slot hmem => h.waits hcontinuing hnext hdisk hmem) ht
              exact .inr ⟨t, hle, hurgent, hr.await rfl rfl rfl rfl rfl⟩

/-- Whatever a schedule does is a run of its crowd. -/
theorem run (h : Mirrors p s c) (hp : p.Regular) (wanted : Schedule σ τ → Bool) (fuel : Nat) :
    ∃ n c', Crowd.Run p (Crowd.Urgent p) Crowd.noCall c n c' ∧
      Mirrors p (s.run p wanted fuel) c' := by
  -- By what is left of the fuel: each step is a turn of a task, or time that passes.
  induction fuel generalizing s c with
  | zero => exact ⟨0, c, .begin, h⟩
  | succ fuel ih =>
      rw [Schedule.run]
      split
      · exact ⟨0, c, .begin, h⟩
      · cases hadvance : s.advance? p with
        | none => exact ⟨0, c, .begin, h⟩
        | some s' =>
            rcases h.advance hp hadvance with ⟨key, task, hcan, h'⟩ | ⟨later, hle, hurgent, h'⟩
            · obtain ⟨n, c', hrun, hmirrors⟩ := ih h'
              exact ⟨_, c', (Crowd.Run.begin.turn hcan).trans hrun, hmirrors⟩
            · obtain ⟨n, c', hrun, hmirrors⟩ := ih h'
              exact ⟨_, c', (Crowd.Run.begin.await hle hurgent).trans hrun, hmirrors⟩

/-- To run a task in the foreground is to call it and to let the crowd go on. -/
theorem perform (h : Mirrors p s c) (hp : p.Regular) (task : τ)
    (hgoing : p.isFinished task = false) :
    ∃ n c', Crowd.Run p (Crowd.Urgent p) Crowd.noCall (c.call task) n c' ∧
      Mirrors p (s.perform p task).2 c' ∧
      ∀ a, (s.perform p task).1 = some a →
        c'.tasks[c.tasks.length]? = some a ∧ p.isFinished a = true := by
  have hcalled : Mirrors p (s.enter task) (c.call task) := by
    have hentered : Mirrors p
        { s with current := some s.nextKey, foreground := some s.nextKey } c :=
      h.congr rfl rfl rfl rfl fun _ he => he
    exact hentered.add [task] fun t ht => List.mem_singleton.1 ht ▸ hgoing
  obtain ⟨n, c', hrun, hmirrors⟩ := hcalled.run hp
    (fun t => (t.result? s.nextKey).isSome) Schedule.patience
  refine ⟨n, c', hrun, hmirrors.congr rfl rfl rfl rfl nofun, fun a ha => ?_⟩
  have hmem : (s.nextKey, a) ∈ ((s.enter task).run p
      (fun t => (t.result? s.nextKey).isSome) Schedule.patience).finished := by
    obtain ⟨l, r, hsplit, -⟩ := List.lookup_eq_some_iff.1 ha
    rw [hsplit]
    exact List.mem_append_right _ (List.mem_cons_self ..)
  have hend := hmirrors.finished _ hmem
  rwa [h.nextKey] at hend

end Mirrors

end Schedule

end Reachability
