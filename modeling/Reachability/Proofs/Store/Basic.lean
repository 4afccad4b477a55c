import Reachability.Proofs.Log.Order
import Reachability.Proofs.Store.Index
import Reachability.Store.Basic

set_option autoImplicit false

/-! # Operations of a store

What an operation of a store makes of its index follows from what its append answers, however the
accesses fail and wherever the process is stopped. -/

namespace Reachability.Store

open Disk.Program (Ends Stops)

/-- The store after the next number has been taken. -/
def reserved (s : Store) : Store :=
  { s with index := { s.index with nextId := s.index.nextId + 1 } }

/-- The task that is created next. -/
def nextTask (s : Store) (links : List String) : Task := .fresh s.index.nextId links

theorem reserve?_eq (s : Store) : s.reserve? =
    if s.index.nextId = Index.lastId then none else some (s.index.nextId, s.reserved) := rfl

variable {s : Store} {moment : Moment} {d d' : Disk} {links : List String} {id : TaskId}
  {result : Results} {P : Disk.Request → Prop}

theorem create_of_lastId (h : s.index.nextId = Index.lastId) :
    s.create moment links = .done (.error .idsExhausted, s) := by
  rw [create, reserve?_eq, if_pos h]

/-- What a creation answers once its append has answered. -/
def afterCreate (s : Store) (task : Task) :
    Except StoreError Unit → Disk.Program (Except StoreError Task × Store)
  | .ok () => .done (.ok task, s.addTask task)
  | .error e => .done (.error e, s)

theorem create_of_ne (h : s.index.nextId ≠ Index.lastId) : s.create moment links =
    (s.log.append moment (createEntry moment (s.nextTask links))).run.bind
      (s.reserved.afterCreate (s.nextTask links)) := by
  rw [create, reserve?_eq, if_neg h]
  refine congrArg (Disk.Program.bind _) (funext fun r => ?_)
  cases r <;> rfl

/-- What an update answers once its append has answered. -/
def afterUpdate (s : Store) (id : TaskId) (result : Results) :
    Except StoreError Unit → Disk.Program (Except StoreError Unit × Store)
  | .ok () => .done (.ok (), s.setResult id result)
  | .error e => .done (.error e, s)

theorem update_of_unknown (h : s.index.tasks.contains id = false) :
    s.update moment id result = .done (.error (.notFound id), s) := by
  rw [update, if_neg (by rw [h]; decide)]

theorem update_of_known (h : s.index.tasks.contains id = true) : s.update moment id result =
    (s.log.append moment (updateEntry moment id result)).run.bind (s.afterUpdate id result) := by
  rw [update, if_pos h]
  refine congrArg (Disk.Program.bind _) (funext fun r => ?_)
  cases r <;> rfl

/-- A store is loaded with what is read from its log. -/
theorem run_load {now : Int} {r : Log.Replay} (h : s.log.replay.run.run now d = (.ok r, d')) :
    s.load.run.run now d = (.ok { s with index := .ofEntries r.entries }, d') := by
  rw [load, Log.Action.run_bind_ok h]
  rfl

/-! ## Operations whose accesses fail -/

theorem ends_create {r : Except StoreError Task × Store}
    (h : Ends P moment.seconds (s.create moment links) d r d') :
    s.index.nextId = Index.lastId ∧ r = (.error .idsExhausted, s) ∧ d' = d ∨
      s.index.nextId ≠ Index.lastId ∧ ∃ x,
        Ends P moment.seconds
          (s.log.append moment (createEntry moment (s.nextTask links))).run d x d' ∧
        (x = .ok () ∧ r = (.ok (s.nextTask links), s.reserved.addTask (s.nextTask links)) ∨
          ∃ e, x = .error e ∧ r = (.error e, s.reserved)) := by
  by_cases hlast : s.index.nextId = Index.lastId
  · rw [create_of_lastId hlast] at h
    cases h
    exact .inl ⟨hlast, rfl, rfl⟩
  · rw [create_of_ne hlast, Disk.Program.ends_bind] at h
    obtain ⟨x, d₁, hx, hrest⟩ := h
    refine .inr ⟨hlast, x, ?_⟩
    cases x with
    | ok u =>
        cases hrest
        exact ⟨hx, .inl ⟨rfl, rfl⟩⟩
    | error e =>
        cases hrest
        exact ⟨hx, .inr ⟨e, rfl, rfl⟩⟩

theorem ends_update {r : Except StoreError Unit × Store}
    (h : Ends P moment.seconds (s.update moment id result) d r d') :
    s.index.tasks.contains id = false ∧ r = (.error (.notFound id), s) ∧ d' = d ∨
      s.index.tasks.contains id = true ∧ ∃ x,
        Ends P moment.seconds (s.log.append moment (updateEntry moment id result)).run d x d' ∧
        (x = .ok () ∧ r = (.ok (), s.setResult id result) ∨
          ∃ e, x = .error e ∧ r = (.error e, s)) := by
  cases hknown : s.index.tasks.contains id with
  | false =>
      rw [update_of_unknown hknown] at h
      cases h
      exact .inl ⟨rfl, rfl, rfl⟩
  | true =>
      rw [update_of_known hknown, Disk.Program.ends_bind] at h
      obtain ⟨x, d₁, hx, hrest⟩ := h
      refine .inr ⟨rfl, x, ?_⟩
      cases x with
      | ok u =>
          cases hrest
          exact ⟨hx, .inl ⟨rfl, rfl⟩⟩
      | error e =>
          cases hrest
          exact ⟨hx, .inr ⟨e, rfl, rfl⟩⟩

/-- What a load answers is what is read from the log. -/
theorem ends_load {now : Int} {x : Except StoreError Store} (h : Ends P now s.load.run d x d') :
    (∃ r, Ends P now s.log.replay.run d (.ok r) d' ∧
      x = .ok { s with index := .ofEntries r.entries }) ∨ ∃ e, x = .error e := by
  rw [load] at h
  rcases Log.Action.ends_bind h with ⟨r, d₁, hreplay, hdone⟩ | ⟨e, rfl, -⟩
  · cases hdone
    exact .inl ⟨r, hreplay, rfl⟩
  · exact .inr ⟨e, rfl⟩

/-! ## Operations that are stopped -/

theorem stops_create {bs : List UInt8}
    (h : Stops moment.seconds (s.create moment links) d bs d') :
    bs = [] ∧ d' = d ∨ Stops moment.seconds
      (s.log.append moment (createEntry moment (s.nextTask links))).run d bs d' := by
  by_cases hlast : s.index.nextId = Index.lastId
  · rw [create_of_lastId hlast] at h
    exact .inl (Disk.Program.stops_done h)
  · rw [create_of_ne hlast] at h
    refine .inr (Disk.Program.stops_bind_done h fun x => ?_)
    cases x <;> exact ⟨_, rfl⟩

theorem stops_update {bs : List UInt8}
    (h : Stops moment.seconds (s.update moment id result) d bs d') :
    bs = [] ∧ d' = d ∨ Stops moment.seconds
      (s.log.append moment (updateEntry moment id result)).run d bs d' := by
  cases hknown : s.index.tasks.contains id with
  | false =>
      rw [update_of_unknown hknown] at h
      exact .inl (Disk.Program.stops_done h)
  | true =>
      rw [update_of_known hknown] at h
      refine .inr (Disk.Program.stops_bind_done h fun x => ?_)
      cases x <;> exact ⟨_, rfl⟩

end Reachability.Store
