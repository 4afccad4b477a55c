import Reachability.Proofs.Store.Agreement

set_option autoImplicit false

/-! # Numbers that are given again

A store counts its numbers on from what it was loaded with. Whatever fails, no number is given twice
as long as every load finds a next number above all that were given (`Lifetimes.increasing`): that
is, as long as the log still has the creation of the newest task or of a newer one. When a rotation
has removed that, a number is given again as soon as enough tasks have been created
(`Creations.given_again`). -/

namespace Reachability.Store

open Disk.Program (Ends)

/-- All accesses may fail. -/
def Anything (_ : Disk.Request) : Prop := True

/-- The lifetimes of stores on one log: the disk, the store in use, and the numbers of the tasks
    that were created, in that order. All accesses may fail. A load that succeeds satisfies `Q`. -/
inductive Lifetimes (log : Log) (d₀ : Disk) (Q : List TaskId → Index → Prop) :
    Disk → Option Store → List TaskId → Prop where
  | begun : Lifetimes log d₀ Q d₀ none []
  | opened {d d' : Disk} {live : Option Store} {ids : List TaskId} {now : Int}
      {x : Except StoreError Store} (h : Lifetimes log d₀ Q d live ids)
      (hends : Ends Anything now (opened log).run d x d') (hQ : ∀ s, x = .ok s → Q ids s.index) :
      Lifetimes log d₀ Q d' x.toOption ids
  | loaded {d d' : Disk} {s : Store} {ids : List TaskId} {now : Int}
      {x : Except StoreError Store} (h : Lifetimes log d₀ Q d (some s) ids)
      (hends : Ends Anything now s.load.run d x d') (hQ : ∀ s', x = .ok s' → Q ids s'.index) :
      Lifetimes log d₀ Q d' (some (x.toOption.getD s)) ids
  | created {d d' : Disk} {s s' : Store} {ids : List TaskId} {moment : Moment}
      {links : List String} {answer : Except StoreError Task}
      (h : Lifetimes log d₀ Q d (some s) ids)
      (hends : Ends Anything moment.seconds (s.create moment links) d (answer, s') d') :
      Lifetimes log d₀ Q d' (some s') (ids ++ createdId answer)
  | updated {d d' : Disk} {s s' : Store} {ids : List TaskId} {moment : Moment} {id : TaskId}
      {result : Results} {answer : Except StoreError Unit}
      (h : Lifetimes log d₀ Q d (some s) ids)
      (hends : Ends Anything moment.seconds (s.update moment id result) d (answer, s') d') :
      Lifetimes log d₀ Q d' (some s') ids

/-- The next number is above all that were given. -/
def Covers (ids : List TaskId) (i : Index) : Prop := ∀ id ∈ ids, id < i.nextId

/-- Tasks that are created one after the other, whether that succeeds or not. -/
inductive Creations : Disk → Store → Nat → Disk → Store → Prop where
  | none (d : Disk) (s : Store) : Creations d s 0 d s
  | more {d d' d'' : Disk} {s s' s'' : Store} {n : Nat} {moment : Moment} {links : List String}
      {answer : Except StoreError Task} (h : Creations d s n d' s')
      (hends : Ends Anything moment.seconds (s'.create moment links) d' (answer, s'') d'') :
      Creations d s (n + 1) d'' s''

/-! ## The next number -/

section Create

variable {P : Disk.Request → Prop} {d d' : Disk} {s s' : Store} {moment : Moment}
  {links : List String}

/-- Every creation but one that finds no number left takes the next number. -/
theorem nextId_of_create {answer : Except StoreError Task}
    (h : Ends P moment.seconds (s.create moment links) d (answer, s') d') :
    s.index.nextId = Index.lastId ∧ createdId answer = [] ∧ s' = s ∨
      s.index.nextId ≠ Index.lastId ∧ s'.index.nextId = Index.idAfter s.index.nextId ∧
        (createdId answer = [] ∨ createdId answer = [s.index.nextId]) := by
  rcases ends_create h with ⟨hlast, hr, -⟩ | ⟨hlast, x, -, hr⟩
  · cases hr
    exact .inl ⟨hlast, rfl, rfl⟩
  have hafter : Index.idAfter s.index.nextId = s.index.nextId + 1 := if_neg hlast
  rcases hr with ⟨-, hr⟩ | ⟨e, -, hr⟩
  · cases hr
    exact .inr ⟨hlast, hafter.symm, .inr rfl⟩
  · cases hr
    exact .inr ⟨hlast, hafter.symm, .inl rfl⟩

theorem nextId_of_update {id : TaskId} {result : Results} {answer : Except StoreError Unit}
    (h : Ends P moment.seconds (s.update moment id result) d (answer, s') d') :
    s'.index.nextId = s.index.nextId := by
  rcases ends_update h with ⟨-, hr, -⟩ | ⟨-, x, -, ⟨-, hr⟩ | ⟨e, -, hr⟩⟩ <;> cases hr <;> rfl

end Create

/-! ## Lifetimes -/

section Lifetimes

variable {log : Log} {d₀ d : Disk} {live : Option Store} {ids : List TaskId}
  {Q : List TaskId → Index → Prop}

/-- What holds of the numbers that were given and of the next one throughout: every load has to make
    it so, and every creation has to keep it, whether its task can be written or not. -/
theorem Lifetimes.invariant (Given : List TaskId → Prop) (Next : List TaskId → TaskId → Prop)
    (hnil : Given [])
    (hload : ∀ {now : Int} {s s' : Store} {d d' : Disk} {ids : List TaskId},
      Ends Anything now s.load.run d (.ok s') d' → Q ids s'.index → Next ids s'.index.nextId)
    (hspent : ∀ {ids : List TaskId} {id : TaskId}, id ≠ Index.lastId → Next ids id →
      Next ids (Index.idAfter id))
    (hgiven : ∀ {ids : List TaskId} {id : TaskId}, id ≠ Index.lastId → Given ids → Next ids id →
      Given (ids ++ [id]) ∧ Next (ids ++ [id]) (Index.idAfter id))
    (h : Lifetimes log d₀ Q d live ids) :
    Given ids ∧ ∀ s, live = some s → Next ids s.index.nextId := by
  induction h with
  | begun => exact ⟨hnil, nofun⟩
  | @opened _ _ _ _ _ x _ hends hQ ih =>
      refine ⟨ih.1, fun s hs => ?_⟩
      cases x with
      | ok s' =>
          cases hs
          exact hload hends (hQ s rfl)
      | error e => cases hs
  | @loaded _ _ s _ _ x _ hends hQ ih =>
      refine ⟨ih.1, fun s' hs => ?_⟩
      cases x with
      | ok s'' =>
          cases hs
          exact hload hends (hQ s'' rfl)
      -- A load that fails leaves the store as it was.
      | error e =>
          cases hs
          exact ih.2 s rfl
  | @created _ _ s s' ids _ _ answer _ hends ih =>
      have hnext := ih.2 s rfl
      rcases nextId_of_create hends with ⟨-, hnone, rfl⟩ | ⟨hlast, hafter, hid⟩
      · rw [hnone, List.append_nil]
        exact ⟨ih.1, fun s hs => Option.some.inj hs ▸ hnext⟩
      rcases hid with hid | hid
      · rw [hid, List.append_nil]
        refine ⟨ih.1, fun t ht => ?_⟩
        rw [← Option.some.inj ht, hafter]
        exact hspent hlast hnext
      · rw [hid]
        obtain ⟨hids, hnext'⟩ := hgiven hlast ih.1 hnext
        refine ⟨hids, fun t ht => ?_⟩
        rw [← Option.some.inj ht, hafter]
        exact hnext'
  | @updated _ _ s s' ids _ _ _ _ _ hends ih =>
      refine ⟨ih.1, fun t ht => ?_⟩
      rw [← Option.some.inj ht, nextId_of_update hends]
      exact ih.2 s rfl

/-- As long as every load covers the numbers that were given, they ascend. -/
theorem Lifetimes.increasing (h : Lifetimes log d₀ Covers d live ids) :
    ids.Pairwise (· < ·) := by
  have hlt : ∀ {id : TaskId}, id ≠ Index.lastId → id < Index.idAfter id := fun hlast =>
    (Index.lt_idAfter_iff hlast).2 (Std.le_refl _)
  refine (h.invariant (fun ids => ids.Pairwise (· < ·))
    (fun ids next => ∀ id ∈ ids, id < next) .nil (fun _ hQ => hQ) ?_ ?_).1
  · intro ids next hlast hcovers id hid
    exact Std.lt_trans (hcovers id hid) (hlt hlast)
  · intro ids next hlast hasc hcovers
    refine ⟨List.pairwise_append.2 ⟨hasc, List.pairwise_singleton .., ?_⟩, ?_⟩
    · intro a ha b hb
      rw [List.mem_singleton.1 hb]
      exact hcovers a ha
    · exact List.forall_mem_append.2 ⟨fun id hid => Std.lt_trans (hcovers id hid) (hlt hlast),
        List.forall_mem_singleton.2 (hlt hlast)⟩

/-- Neither 0 nor the greatest number is given to a task. -/
theorem Lifetimes.inner (h : Lifetimes log d₀ Q d live ids) :
    ∀ id ∈ ids, 0 < id ∧ id ≠ Index.lastId := by
  refine (h.invariant (fun ids => ∀ id ∈ ids, 0 < id ∧ id ≠ Index.lastId)
    (fun _ next => 0 < next) nofun ?_ ?_ ?_).1
  · intro now s s' d d' ids hends _
    rcases ends_load hends with ⟨r, -, hr⟩ | ⟨e, he⟩
    · cases hr
      exact Index.nextId_pos r.entries
    · cases he
  · intro ids next hlast hpos
    exact Std.lt_trans hpos ((Index.lt_idAfter_iff hlast).2 (Std.le_refl _))
  · intro ids next hlast hids hpos
    exact ⟨List.forall_mem_append.2 ⟨hids, List.forall_mem_singleton.2 ⟨hpos, hlast⟩⟩,
      Std.lt_trans hpos ((Index.lt_idAfter_iff hlast).2 (Std.le_refl _))⟩

end Lifetimes

/-! ## Loads that find a lower number -/

theorem Creations.toNat_nextId {d d' : Disk} {s s' : Store} {n : Nat}
    (h : Creations d s n d' s')
    (hn : s.index.nextId.toNat + n ≤ Index.lastId.toNat) :
    s'.index.nextId.toNat = s.index.nextId.toNat + n := by
  induction h with
  | none => rfl
  | @more _ _ _ s' s'' n _ _ _ _ hends ih =>
      have ih := ih (by omega)
      rcases nextId_of_create hends with ⟨hlast, -, -⟩ | ⟨hlast, hnext, -⟩
      · rw [hlast] at ih
        omega
      · rw [hnext, Index.toNat_idAfter hlast, ih]
        rfl

/-- Whether creations succeed or not, in the end the number is given to the task that is created. -/
theorem Creations.given_again {d d₁ d₂ : Disk} {s s₁ s₂ : Store} {id : TaskId}
    (hlast : id ≠ Index.lastId) (hle : s.index.nextId ≤ id)
    (h : Creations d s (id.toNat - s.index.nextId.toNat) d₁ s₁) {moment : Moment}
    {links : List String} {task : Task}
    (hends : Ends Anything moment.seconds (s₁.create moment links) d₁ (.ok task, s₂) d₂) :
    task.id = id := by
  have hle : s.index.nextId.toNat ≤ id.toNat := UInt64.le_iff_toNat_le.1 hle
  have hlt := Index.toNat_lt_of_ne hlast
  have hnext := h.toNat_nextId (by rw [Index.toNat_lastId]; omega)
  have hid : s₁.index.nextId = id := UInt64.toNat_inj.1 (by omega)
  rcases nextId_of_create hends with ⟨-, hnone, -⟩ | ⟨-, -, hnone | hsome⟩
  · cases hnone
  · cases hnone
  · rw [← hid]
    exact List.singleton_inj.1 hsome

/-- Numbers are given in ascending order, each of them once, as long as every load finds a next
    number above them. A load does just if it reads the creation of a task with the number or with a
    greater one; if it does not, then the number is given again once enough tasks have been
    created. -/
theorem given_again_iff_forgotten (log : Log) (d₀ : Disk) :
    (∀ d live ids, Lifetimes log d₀ Covers d live ids → ids.Pairwise (· < ·)) ∧
      ∀ d live ids, Lifetimes log d₀ (fun _ _ => True) d live ids →
        ∀ (now : Int) (old s : Store) (d' : Disk), old.log = log →
          Ends Anything now old.load.run d (.ok s) d' →
          ∃ r, Ends Anything now log.replay.run d (.ok r) d' ∧ ∀ id ∈ ids,
            (id < s.index.nextId ↔
              ∃ e ∈ r.entries, ∃ task, e.change = .create task ∧ id ≤ task.id) ∧
            (¬ id < s.index.nextId → ∀ d₁ s₁,
              Creations d' s (id.toNat - s.index.nextId.toNat) d₁ s₁ →
                ∀ moment links task s₂ d₂, Ends Anything moment.seconds
                  (s₁.create moment links) d₁ (.ok task, s₂) d₂ → task.id = id) := by
  refine ⟨fun d live ids h => h.increasing, ?_⟩
  intro d live ids h now old s d' hlog hload
  rcases ends_load hload with ⟨r, hreplay, hr⟩ | ⟨e, he⟩
  · rw [hlog] at hreplay
    cases hr
    refine ⟨r, hreplay, fun id hid => ?_⟩
    obtain ⟨hpos, hlast⟩ := h.inner id hid
    refine ⟨Index.lt_nextId_iff r.entries hlast hpos, ?_⟩
    intro hforgotten d₁ s₁ hcreations moment links task s₂ d₂ hends
    exact hcreations.given_again hlast (Std.not_lt.1 hforgotten) hends
  · cases he

/-- A log that keeps its segments for fifty seconds. A task is created, and a minute later it gets a
    result: that sets the creation aside and removes it. So the next store gives its number
    again. -/
theorem given_again_iff_forgotten_first_task : ∃ d s,
    Lifetimes (.sample (.ofSeconds 50)) ⟨.empty⟩ (fun _ _ => True) d (some s) [1, 1] ∧
      ¬ Lifetimes (.sample (.ofSeconds 50)) ⟨.empty⟩ Covers d (some s) [1, 1] := by
  let log := Log.sample (.ofSeconds 50)
  have hfresh : (opened log).run.run 0 ⟨.empty⟩ = (.ok (fresh log), ⟨.empty⟩) :=
    run_opened_empty (Log.begins_sample _) 0
  obtain ⟨⟨⟨a₁, s₁⟩, d₁⟩, ⟨⟨a₂, s₂⟩, d₂⟩, ⟨x₃, d₃⟩, ⟨⟨a₄, s₄⟩, d₄⟩, h₁, h₂, h₃, h₄, hid, hnext, hok⟩ :
      ∃ r₁ r₂ r₃ r₄,
        (create (fresh log) (Log.sampleMoment 0) ["http://localhost"]).run
          (Log.sampleMoment 0).seconds ⟨.empty⟩ = r₁ ∧
        (update r₁.1.2 (Log.sampleMoment 60) 1 .empty).run (Log.sampleMoment 60).seconds r₁.2 = r₂ ∧
        (opened log).run.run 61 r₂.2 = r₃ ∧
        (create (r₃.1.toOption.getD (fresh log)) (Log.sampleMoment 61) []).run
          (Log.sampleMoment 61).seconds r₃.2 = r₄ ∧
        createdId r₁.1.1 = [1] ∧ r₃.1.toOption.map (·.index.nextId) = some 1 ∧
        r₄.1.1.isOk = true :=
    ⟨_, _, _, _, rfl, rfl, rfl, rfl, by decide +kernel, by decide +kernel, by decide +kernel⟩
  -- A run without failures is one of those in which accesses may fail.
  have hends₀ := Disk.Program.ends_run Anything 0 (opened log).run ⟨.empty⟩
  have hends₁ := Disk.Program.ends_run Anything (Log.sampleMoment 0).seconds
    (create (fresh log) (Log.sampleMoment 0) ["http://localhost"]) ⟨.empty⟩
  have hends₂ := Disk.Program.ends_run Anything (Log.sampleMoment 60).seconds
    (update s₁ (Log.sampleMoment 60) 1 .empty) d₁
  have hends₃ := Disk.Program.ends_run Anything 61 (opened log).run d₂
  rw [hfresh] at hends₀
  rw [h₁] at hends₁
  rw [h₂] at hends₂
  rw [h₃] at hends₃
  have hrun₂ : Lifetimes log ⟨.empty⟩ (fun _ _ => True) d₂ (some s₂) ([] ++ createdId a₁) :=
    .updated (.created (.opened .begun hends₀ fun _ _ => trivial) hends₁) hends₂
  rw [hid, List.nil_append] at hrun₂
  cases x₃ with
  | error e => cases hnext
  | ok s₃ =>
      have hnext : s₃.index.nextId = 1 := Option.some.inj hnext
      have h₄ : (create s₃ (Log.sampleMoment 61) []).run (Log.sampleMoment 61).seconds d₃
          = ((a₄, s₄), d₄) := h₄
      have hends₄ := Disk.Program.ends_run Anything (Log.sampleMoment 61).seconds
        (create s₃ (Log.sampleMoment 61) []) d₃
      rw [h₄] at hends₄
      cases a₄ with
      | error e => cases hok
      | ok task =>
          have hrun₄ : Lifetimes log ⟨.empty⟩ (fun _ _ => True) d₄ (some s₄) ([1] ++ [task.id]) :=
            .created (.opened hrun₂ hends₃ fun _ _ => trivial) hends₄
          obtain ⟨hincreasing, hloads⟩ := given_again_iff_forgotten log ⟨.empty⟩
          obtain ⟨r, -, hr⟩ := hloads _ _ _ hrun₂ 61 (fresh log) s₃ d₃ rfl hends₃
          have hzero : (1 : TaskId).toNat - s₃.index.nextId.toNat = 0 := by
            rw [hnext]
            rfl
          have hagain : task.id = 1 := (hr 1 (List.mem_singleton.2 rfl)).2
            (by rw [hnext]; decide) d₃ s₃ (hzero ▸ .none d₃ s₃) _ _ task s₄ d₄ hends₄
          rw [hagain] at hrun₄
          refine ⟨d₄, s₄, hrun₄, fun hcovers => ?_⟩
          have := hincreasing _ _ _ hcovers
          revert this
          decide

end Reachability.Store
