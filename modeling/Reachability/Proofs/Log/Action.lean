import Reachability.Log.File
import Reachability.Proofs.Disk.Program

set_option autoImplicit false

/-! # Actions on a log

An action is a disk program that may fail. Its steps are run one after the other until one fails,
and the same is said of actions in which accesses fail and of those that are stopped. -/

namespace Reachability.Log.Action

open Disk (Fault Request perform)
open Disk.Program (Ends Stops Only)

variable {α β : Type} {x : Action α} {f : α → Action β} {now : Int} {d d' : Disk}

/-- What follows after the answer of an action. -/
def continueWith (f : α → Action β) : Except StoreError α → Disk.Program (Except StoreError β)
  | .ok a => (f a).run
  | .error e => .done (.error e)

theorem run_bind_eq (x : Action α) (f : α → Action β) :
    (x >>= f).run = x.run.bind (continueWith f) := by
  refine congrArg x.run.bind (funext fun r => ?_)
  cases r <;> rfl

theorem discard_eq (x : Action α) : discard x = x >>= fun _ => pure () := by
  refine congrArg x.run.bind (funext fun r => ?_)
  cases r <;> rfl

/-- What follows after an action whose error is handled. -/
def handleWith (handler : StoreError → Action α) :
    Except StoreError α → Disk.Program (Except StoreError α)
  | .ok a => .done (.ok a)
  | .error e => (handler e).run

theorem run_tryCatch_eq (x : Action α) (handler : StoreError → Action α) :
    (tryCatch x handler : Action α).run = x.run.bind (handleWith handler) := by
  refine congrArg x.run.bind (funext fun r => ?_)
  cases r <;> rfl

/-! ## Running -/

section Run

variable {a : α} {e : StoreError} {r : Request}

theorem run_bind_ok (h : x.run.run now d = (.ok a, d')) :
    (x >>= f).run.run now d = (f a).run.run now d' := by
  rw [run_bind_eq, Disk.Program.run_bind, h]
  rfl

theorem run_bind_error (h : x.run.run now d = (.error e, d')) :
    (x >>= f).run.run now d = (.error e, d') := by
  rw [run_bind_eq, Disk.Program.run_bind, h]
  rfl

theorem run_discard_ok (h : x.run.run now d = (.ok a, d')) :
    (discard x).run.run now d = (.ok (), d') := by
  rw [discard_eq, run_bind_ok h]
  rfl

theorem run_discard_error (h : x.run.run now d = (.error e, d')) :
    (discard x).run.run now d = (.error e, d') := by
  rw [discard_eq, run_bind_error h]

theorem run_tryCatch_ok {handler : StoreError → Action α} (h : x.run.run now d = (.ok a, d')) :
    (tryCatch x handler : Action α).run.run now d = (.ok a, d') := by
  rw [run_tryCatch_eq, Disk.Program.run_bind, h]
  rfl

theorem run_access_ok {b : r.Result} (h : perform now d r = (.ok b, d')) :
    (access r).run.run now d = (.ok b, d') := by
  simp only [access, ExceptT.run, Disk.Program.ask, Disk.Program.bind, Disk.Program.run, h]

theorem run_access_error {fault : Fault} (h : perform now d r = (.error fault, d')) :
    (access r).run.run now d = (.error (.log (.disk fault)), d') := by
  simp only [access, ExceptT.run, Disk.Program.ask, Disk.Program.bind, Disk.Program.run, h]

theorem run_accessIfThere_ok {b : r.Result} (h : perform now d r = (.ok b, d')) :
    (accessIfThere r).run.run now d = (.ok (some b), d') := by
  simp only [accessIfThere, ExceptT.run, Disk.Program.ask, Disk.Program.bind, Disk.Program.run, h]

theorem run_accessIfThere_notFound (h : perform now d r = (.error .notFound, d')) :
    (accessIfThere r).run.run now d = (.ok none, d') := by
  simp only [accessIfThere, ExceptT.run, Disk.Program.ask, Disk.Program.bind, Disk.Program.run, h]

theorem run_isThere (now : Int) (d : Disk) (path : List Char) :
    (isThere path).run.run now d = (.ok (d.stat path).isOk, d) := rfl

end Run

/-! ## Kinds of accesses -/

section Only

variable {P : Request → Prop}

theorem only_bind (hx : x.run.Only P) (hf : ∀ a, (f a).run.Only P) : (x >>= f).run.Only P := by
  rw [run_bind_eq]
  refine hx.bind fun r => ?_
  cases r with
  | ok a => exact hf a
  | error e => trivial

theorem only_discard (hx : x.run.Only P) : (discard x).run.Only P := by
  rw [discard_eq]
  exact only_bind hx fun _ => trivial

theorem only_access {r : Request} (h : P r) : (access r).run.Only P := by
  refine ⟨h, fun answer => ?_⟩
  cases answer <;> trivial

theorem only_accessIfThere {r : Request} (h : P r) : (accessIfThere r).run.Only P := by
  refine ⟨h, fun answer => ?_⟩
  simp only [Disk.Program.bind]
  split <;> trivial

theorem only_isThere {path : List Char} (h : P (.stat path)) : (isThere path).run.Only P :=
  ⟨h, fun _ => trivial⟩

end Only

/-! ## Accesses that fail -/

section Ends

variable {P : Request → Prop}

theorem ends_bind {r : Except StoreError β} (h : Ends P now (x >>= f).run d r d') :
    (∃ a d₁, Ends P now x.run d (.ok a) d₁ ∧ Ends P now (f a).run d₁ r d') ∨
      ∃ e, r = .error e ∧ Ends P now x.run d (.error e) d' := by
  rw [run_bind_eq, Disk.Program.ends_bind] at h
  obtain ⟨answer, d₁, hx, hf⟩ := h
  cases answer with
  | ok a => exact .inl ⟨a, d₁, hx, hf⟩
  | error e =>
      cases hf
      exact .inr ⟨e, rfl, hx⟩

theorem ends_access {r : Request} {result : Except StoreError r.Result}
    (h : Ends P now (access r).run d result d') :
    (access r).run.run now d = (result, d') ∨
      P r ∧ ∃ fault bs, result = .error (.log (.disk fault)) ∧ Disk.Partly now d r bs d' := by
  cases h with
  | performed h =>
      left
      simp only [access, ExceptT.run, Disk.Program.ask, Disk.Program.bind, Disk.Program.run]
      simp only [Disk.Program.bind] at h
      split at h <;> cases h <;> rfl
  | failed hr fault hpart h =>
      cases h
      exact .inr ⟨hr, fault, _, rfl, hpart⟩

theorem ends_bind_ok {r : Except StoreError β} {a : α} {d₁ : Disk}
    (h : Ends P now (x >>= f).run d r d') (honly : x.run.Only fun q => ¬ P q)
    (hrun : x.run.run now d = (.ok a, d₁)) : Ends P now (f a).run d₁ r d' := by
  rcases ends_bind h with ⟨b, d₂, hx, hf⟩ | ⟨e, -, hx⟩
  · rw [honly.run_eq_of_ends hx] at hrun
    cases hrun
    exact hf
  · rw [honly.run_eq_of_ends hx] at hrun
    cases hrun

theorem ends_bind_error {r : Except StoreError β} {e : StoreError} {d₁ : Disk}
    (h : Ends P now (x >>= f).run d r d') (honly : x.run.Only fun q => ¬ P q)
    (hrun : x.run.run now d = (.error e, d₁)) : r = .error e ∧ d' = d₁ := by
  rcases ends_bind h with ⟨b, d₂, hx, hf⟩ | ⟨e', rfl, hx⟩
  · rw [honly.run_eq_of_ends hx] at hrun
    cases hrun
  · rw [honly.run_eq_of_ends hx] at hrun
    cases hrun
    exact ⟨rfl, rfl⟩

end Ends

/-! ## Processes that are stopped -/

theorem stops_bind {bs : List UInt8} (h : Stops now (x >>= f).run d bs d') :
    Stops now x.run d bs d' ∨ ∃ a d₁ bs', x.run.run now d = (.ok a, d₁) ∧
      bs = x.run.written now d ++ bs' ∧ Stops now (f a).run d₁ bs' d' := by
  rw [run_bind_eq] at h
  rcases Disk.Program.stops_bind h with hfirst | ⟨bs', rfl, hnext⟩
  · exact .inl hfirst
  · rcases hx : x.run.run now d with ⟨answer, d₁⟩
    rw [hx] at hnext
    cases answer with
    | ok a => exact .inr ⟨a, d₁, bs', rfl, rfl, hnext⟩
    | error e =>
        obtain ⟨rfl, rfl⟩ := Disk.Program.stops_done hnext
        have hstop := Disk.Program.stops_run now x.run d
        rw [hx] at hstop
        rw [List.append_nil]
        exact .inl hstop

theorem stops_access {r : Request} {bs : List UInt8} (h : Stops now (access r).run d bs d') :
    Disk.Partly now d r bs d' ∨ bs = r.written (perform now d r).1 ∧ d' = (perform now d r).2 := by
  cases h with
  | here => exact .inl (.nothing r)
  | during h => exact .inl h
  | after h =>
      simp only [Disk.Program.bind] at h
      split at h
      · next hp =>
        obtain ⟨rfl, rfl⟩ := Disk.Program.stops_done h
        exact .inr ⟨by rw [List.append_nil], rfl⟩
      · next hp =>
        obtain ⟨rfl, rfl⟩ := Disk.Program.stops_done h
        exact .inr ⟨by rw [List.append_nil], rfl⟩

/-- A process is stopped in an access or after it. -/
theorem stops_access_bind {r : Request} {g : r.Result → Action β} {b : r.Result} {d₁ : Disk}
    {bs : List UInt8} (hp : perform now d r = (.ok b, d₁))
    (h : Stops now (access r >>= g).run d bs d') :
    Disk.Partly now d r bs d' ∨
      ∃ bs', bs = r.written (.ok b) ++ bs' ∧ Stops now (g b).run d₁ bs' d' := by
  have hwritten : (access r).run.written now d = r.written (.ok b) := by
    simp only [access, ExceptT.run, Disk.Program.ask, Disk.Program.bind, Disk.Program.written, hp,
      List.append_nil]
  rcases stops_bind h with h | ⟨b', d₂, bs', hrun, hbs, h⟩
  · rcases stops_access h with h | ⟨hbs, hd⟩
    · exact .inl h
    · rw [hp] at hbs hd
      rw [hbs, hd]
      exact .inr ⟨[], (List.append_nil _).symm, .here _ _⟩
  · rw [run_access_ok hp] at hrun
    cases hrun
    rw [hwritten] at hbs
    exact .inr ⟨bs', hbs, h⟩

/-- A process is stopped in an access that is refused or with the error in hand. -/
theorem stops_access_error {r : Request} {g : r.Result → Action β} {fault : Fault} {d₁ : Disk}
    {bs : List UInt8} (hp : perform now d r = (.error fault, d₁))
    (h : Stops now (access r >>= g).run d bs d') :
    Disk.Partly now d r bs d' ∨ d' = d₁ := by
  rcases stops_bind h with h | ⟨b, d₂, bs', hrun, -, -⟩
  · rcases stops_access h with h | ⟨-, hd⟩
    · exact .inl h
    · rw [hp] at hd
      exact .inr hd
  · rw [run_access_error hp] at hrun
    cases hrun

/-- An action that is followed by a value is stopped where it would be alone. -/
theorem stops_bind_done {bs : List UInt8} (h : Stops now (x >>= f).run d bs d')
    (hf : ∀ a, ∃ r, (f a).run = .done r) : Stops now x.run d bs d' := by
  rw [run_bind_eq] at h
  refine Disk.Program.stops_bind_done h fun r => ?_
  cases r with
  | ok a => exact hf a
  | error e => exact ⟨_, rfl⟩

theorem stops_reading {r : Request} {bs : List UInt8} (h : Stops now (access r).run d bs d')
    (hr : r.IsReading) : bs = [] ∧ d' = d :=
  (only_access hr).stops_of_isReading h

/-- A process that is stopped while it only reads has changed nothing. -/
theorem stops_reading_bind {bs : List UInt8} (h : Stops now (x >>= f).run d bs d')
    (hx : x.run.Only Request.IsReading) :
    bs = [] ∧ d' = d ∨ ∃ a, x.run.run now d = (.ok a, d) ∧ Stops now (f a).run d bs d' := by
  rcases stops_bind h with hstop | ⟨a, d₁, bs', hrun, hbs, hstop⟩
  · exact .inl (hx.stops_of_isReading hstop)
  · have hd := hx.run_of_isReading now d
    rw [hrun] at hd
    obtain rfl : d₁ = d := hd
    rw [(hx.mono fun r hr => hr.isSilent).written_eq, List.nil_append] at hbs
    rw [hbs]
    exact .inr ⟨a, hrun, hstop⟩

end Reachability.Log.Action
