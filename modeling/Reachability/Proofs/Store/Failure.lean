import Reachability.Proofs.Log.Contents
import Reachability.Proofs.Store.Agreement

set_option autoImplicit false

/-! # Operations that fail

A store is opened in an empty directory, and then almost every access of every operation may fail,
also one that cuts off what is left of a line (`Tries`). An operation that fails and could cut off
what it wrote leaves the tasks as they were, and of what is read from the log nothing is missing but
the entries of old segments that it removed (`failed_call_unharmed`). -/

namespace Reachability.Store

open Disk (Place)
open Disk.Program (Fares)

/-- The store after a load has answered. -/
def afterLoad (s : Store) : Except StoreError Store → Store
  | .ok s' => s'
  | .error _ => s

/-- A run of a store that has been opened, on a disk that is `d₀` before: the date, the disk, the
    store, and the paths from which files were removed. The date does not go back. Almost every
    access may fail, and each operation may succeed or fail. -/
inductive Tries (log : Log) (d₀ : Disk) :
    CivilDate → Disk → Store → List (List Char) → Prop where
  | opened {now : Int} (today : CivilDate) {s : Store} {d : Disk} {gone : List (List Char)}
      (hf : Fares (log.MayFail true) now (opened log).run d₀ gone (.ok s) d) :
      Tries log d₀ today d s gone
  | created {today : CivilDate} {d d' : Disk} {s s' : Store} {before gone : List (List Char)}
      {moment : Moment} {links : List String} {answer : Except StoreError Task}
      (h : Tries log d₀ today d s before) (hdate : today.upTo moment.today)
      (hplain : moment.today.Plain)
      (hf : Fares (log.MayFail true) moment.seconds (s.create moment links) d gone (answer, s') d') :
      Tries log d₀ moment.today d' s' (before ++ gone)
  | updated {today : CivilDate} {d d' : Disk} {s s' : Store} {before gone : List (List Char)}
      {moment : Moment} {id : TaskId} {result : Results} {answer : Except StoreError Unit}
      (h : Tries log d₀ today d s before) (hdate : today.upTo moment.today)
      (hplain : moment.today.Plain)
      (hf : Fares (log.MayFail true) moment.seconds (s.update moment id result) d gone (answer, s')
        d') :
      Tries log d₀ moment.today d' s' (before ++ gone)
  | loaded {today : CivilDate} {d d' : Disk} {s : Store} {before gone : List (List Char)}
      {now : Int} {x : Except StoreError Store} (h : Tries log d₀ today d s before)
      (hf : Fares (log.MayFail true) now s.load.run d gone x d') :
      Tries log d₀ today d' (s.afterLoad x) (before ++ gone)

/-! ## Single operations -/

section Operations

variable {P : Disk → Disk.Request → Prop} {s s' : Store} {moment : Moment} {d d' : Disk}
  {gone : List (List Char)}

theorem fares_create {links : List String} {r : Except StoreError Task × Store}
    (hf : Fares P moment.seconds (s.create moment links) d gone r d') :
    s.index.nextId = Index.lastId ∧ r = (.error .idsExhausted, s) ∧ gone = [] ∧ d' = d ∨
      s.index.nextId ≠ Index.lastId ∧ ∃ x,
        Fares P moment.seconds
          (s.log.append moment (createEntry moment (s.nextTask links))).run d gone x d' ∧
        (x = .ok () ∧ r = (.ok (s.nextTask links), s.reserved.addTask (s.nextTask links)) ∨
          ∃ e, x = .error e ∧ r = (.error e, s.reserved)) := by
  by_cases hlast : s.index.nextId = Index.lastId
  · rw [create_of_lastId hlast] at hf
    cases hf
    exact .inl ⟨hlast, rfl, rfl, rfl⟩
  · rw [create_of_ne hlast, Disk.Program.fares_bind] at hf
    obtain ⟨x, d₁, first, rest, rfl, hx, hrest⟩ := hf
    refine .inr ⟨hlast, x, ?_⟩
    cases x with
    | ok u =>
        cases hrest
        rw [List.append_nil]
        exact ⟨hx, .inl ⟨rfl, rfl⟩⟩
    | error e =>
        cases hrest
        rw [List.append_nil]
        exact ⟨hx, .inr ⟨e, rfl, rfl⟩⟩

theorem fares_update {id : TaskId} {result : Results} {r : Except StoreError Unit × Store}
    (hf : Fares P moment.seconds (s.update moment id result) d gone r d') :
    s.index.tasks.contains id = false ∧ r = (.error (.notFound id), s) ∧ gone = [] ∧ d' = d ∨
      ∃ x, Fares P moment.seconds (s.log.append moment (updateEntry moment id result)).run d gone x
          d' ∧
        (x = .ok () ∧ r = (.ok (), s.setResult id result) ∨
          ∃ e, x = .error e ∧ r = (.error e, s)) := by
  cases hknown : s.index.tasks.contains id with
  | false =>
      rw [update_of_unknown hknown] at hf
      cases hf
      exact .inl ⟨rfl, rfl, rfl, rfl⟩
  | true =>
      rw [update_of_known hknown, Disk.Program.fares_bind] at hf
      obtain ⟨x, d₁, first, rest, rfl, hx, hrest⟩ := hf
      refine .inr ⟨x, ?_⟩
      cases x with
      | ok u =>
          cases hrest
          rw [List.append_nil]
          exact ⟨hx, .inl ⟨rfl, rfl⟩⟩
      | error e =>
          cases hrest
          rw [List.append_nil]
          exact ⟨hx, .inr ⟨e, rfl, rfl⟩⟩

theorem fares_load {now : Int} {x : Except StoreError Store}
    (hf : Fares P now s.load.run d gone x d') :
    ∃ y, Fares P now s.log.replay.run d gone y d' ∧ (s.afterLoad x).log = s.log := by
  rw [load] at hf
  rcases Log.Action.fares_bind hf with ⟨r, d₁, first, rest, rfl, hreplay, hdone⟩ | ⟨e, rfl, hreplay⟩
  · cases hdone
    rw [List.append_nil]
    exact ⟨_, hreplay, rfl⟩
  · exact ⟨_, hreplay, rfl⟩

end Operations

/-! ## Runs -/

/-- What every operation keeps, whether it succeeds or fails. -/
structure Stands (log : Log) (d₀ : Disk) (here : Place) (base : String) (today : CivilDate)
    (d : Disk) (s : Store) (before : List (List Char)) : Prop where
  shelf : ∃ shelf, log.Holds d₀ here base d shelf ∧ (before = [] → shelf.Lined log today)
  log : s.log = log

section Runs

variable {log : Log} {d₀ d d' : Disk} {here : Place} {base : String} {today : CivilDate}
  {s s' : Store} {before gone : List (List Char)} {moment : Moment}
  (hb : log.Begins d₀ here base)

theorem Stands.mono (h : Stands log d₀ here base today d s before)
    (hdate : today.upTo moment.today) : Stands log d₀ here base moment.today d s before := by
  obtain ⟨⟨shelf, hd, hlined⟩, hlog⟩ := h
  exact ⟨⟨shelf, hd, fun hbefore => (hlined hbefore).mono hdate⟩, hlog⟩

include hb

theorem stands_fresh : Stands log d₀ here base today d₀ (fresh log) [] :=
  ⟨⟨.empty, hb.holds_empty, fun _ => Log.Shelf.lined_empty log today⟩, rfl⟩

theorem Stands.load (h : Stands log d₀ here base today d s before) {P : Disk → Disk.Request → Prop}
    {now : Int} {x : Except StoreError Store} (hf : Fares P now s.load.run d gone x d') :
    Stands log d₀ here base today d' (s.afterLoad x) (before ++ gone) := by
  obtain ⟨⟨shelf, hd, hlined⟩, hlog⟩ := h
  obtain ⟨y, hreplay, hsame⟩ := fares_load hf
  rw [hlog] at hreplay
  exact ⟨hd.after_replay hb hlined hreplay, hsame.trans hlog⟩

theorem Stands.append (h : Stands log d₀ here base moment.today d s before)
    (hplain : moment.today.Plain) {cut : Bool} {e : Log.Entry} {x : Except StoreError Unit}
    (hf : Fares (log.MayFail cut) moment.seconds (s.log.append moment e).run d gone x d')
    (hs : s'.log = s.log) : Stands log d₀ here base moment.today d' s' (before ++ gone) := by
  obtain ⟨⟨shelf, hd, hlined⟩, hlog⟩ := h
  rw [hlog] at hf
  exact ⟨hd.after_append hb hplain hlined hf, hs.trans hlog⟩

theorem Tries.stands (h : Tries log d₀ today d s gone) :
    Stands log d₀ here base today d s gone := by
  induction h with
  | opened today hf => exact (stands_fresh hb).load hb hf
  | created _ hdate hplain hf ih =>
      have ih := ih.mono hdate
      rcases fares_create hf with ⟨-, hr, rfl, rfl⟩ | ⟨-, x, happend, ⟨-, hr⟩ | ⟨e, -, hr⟩⟩
      · cases hr
        rwa [List.append_nil]
      · cases hr
        exact ih.append hb hplain happend rfl
      · cases hr
        exact ih.append hb hplain happend rfl
  | updated _ hdate hplain hf ih =>
      have ih := ih.mono hdate
      rcases fares_update hf with ⟨-, hr, rfl, rfl⟩ | ⟨x, happend, ⟨-, hr⟩ | ⟨e, -, hr⟩⟩
      · cases hr
        rwa [List.append_nil]
      · cases hr
        exact ih.append hb hplain happend rfl
      · cases hr
        exact ih.append hb hplain happend rfl
  | loaded _ hf ih => exact ih.load hb hf

end Runs

/-- An operation that fails at any point of any run, whichever of its accesses fail, changes no
    task, and the log is unharmed by it, provided that it can cut off what it wrote. Only a creation
    whose task could not be written takes a number. -/
theorem failed_call_unharmed {log : Log} {d₀ : Disk} {here : Place} {base : String}
    (hb : log.Begins d₀ here base) {today : CivilDate} {d : Disk} {s : Store}
    {before : List (List Char)} (h : Tries log d₀ today d s before) {moment : Moment}
    (hdate : today.upTo moment.today) (hplain : moment.today.Plain) :
    (∀ links e s' gone d',
      Fares (log.MayFail false) moment.seconds (s.create moment links) d gone (.error e, s') d' →
        s'.log = s.log ∧ s'.index.tasks = s.index.tasks ∧
        (s.index.nextId = Index.lastId ∧ e = .idsExhausted ∧
            s'.index.nextId = s.index.nextId ∧ d' = d ∨
          s.index.nextId ≠ Index.lastId ∧
            s'.index.nextId.toNat = s.index.nextId.toNat + 1) ∧
        log.Unharmed moment.seconds before gone d d') ∧
      (∀ id result e s' gone d',
        Fares (log.MayFail false) moment.seconds (s.update moment id result) d gone (.error e, s') d' →
          s' = s ∧ log.Unharmed moment.seconds before gone d d') ∧
      ∀ e gone d', Fares (log.MayFail true) moment.seconds s.load.run d gone (.error e) d' →
        s.afterLoad (.error e) = s ∧ log.Unharmed moment.seconds before gone d d' := by
  obtain ⟨⟨shelf, hd, hlined⟩, hlog⟩ := (h.stands hb).mono hdate
  have hnothing : log.Unharmed moment.seconds before [] d d := hd.unharmed_of_eq hb hd .rfl rfl
  refine ⟨fun links e s' gone d' hf => ?_, fun id result e s' gone d' hf => ?_,
    fun e gone d' hf => ?_⟩
  · rcases fares_create hf with ⟨hlast, hr, rfl, rfl⟩ | ⟨hlast, x, happend, ⟨-, hr⟩ | ⟨e', rfl, hr⟩⟩
    · cases hr
      exact ⟨rfl, rfl, .inl ⟨hlast, rfl, rfl, rfl⟩, hnothing⟩
    · cases hr
    · cases hr
      rw [hlog] at happend
      have hnext := Index.toNat_idAfter hlast
      rw [Index.idAfter, if_neg hlast] at hnext
      exact ⟨rfl, rfl, .inr ⟨hlast, hnext⟩, hd.unharmed_append hb hplain hlined happend⟩
  · rcases fares_update hf with ⟨-, hr, rfl, rfl⟩ | ⟨x, happend, ⟨-, hr⟩ | ⟨e', rfl, hr⟩⟩
    · cases hr
      exact ⟨rfl, hnothing⟩
    · cases hr
    · cases hr
      rw [hlog] at happend
      exact ⟨rfl, hd.unharmed_append hb hplain hlined happend⟩
  · obtain ⟨y, hreplay, -⟩ := fares_load hf
    rw [hlog] at hreplay
    exact ⟨rfl, hd.unharmed_replay hb hreplay⟩

/-- Whether an access opens a file. -/
def isOpening : Disk.Request → Bool
  | .openAppend _ => true
  | _ => false

/-- The first task of a store that keeps segments for a second. -/
def sampleFirst : (Except StoreError Task × Store) × Disk :=
  ((fresh (.sample (.ofSeconds 1))).create (Log.sampleMoment 0) []).run 0 ⟨.empty⟩

/-- A second task some seconds later, whose file cannot be opened. -/
def sampleSecond : (Except StoreError Task × Store) × Disk :=
  (sampleFirst.1.2.create (Log.sampleMoment 9) []).runWithout isOpening .noSpace 9 sampleFirst.2

/-- A creation fails after the active file has been set aside and removed. -/
theorem failed_call_unharmed_unopened : ∃ before,
    Tries (.sample (.ofSeconds 1)) ⟨.empty⟩ (Log.sampleMoment 0).today sampleFirst.2
        sampleFirst.1.2 before ∧
      sampleFirst.2.namesIn [] = ["tasks.json"] ∧ sampleSecond.2.namesIn [] = [] ∧
      ∃ e gone, Fares (Log.MayFail (.sample (.ofSeconds 1)) false) 9
          (sampleFirst.1.2.create (Log.sampleMoment 9) []) sampleFirst.2 gone
          (.error e, sampleSecond.1.2) sampleSecond.2 ∧
        sampleSecond.1.2.index.tasks = sampleFirst.1.2.index.tasks ∧
        Log.Unharmed (.sample (.ofSeconds 1)) 9 before gone sampleFirst.2 sampleSecond.2 := by
  have hb := Log.begins_sample (.ofSeconds 1)
  obtain ⟨gone₀, h₀⟩ := Disk.Program.fares_run (Log.MayFail (.sample (.ofSeconds 1)) true) 0
    (opened (.sample (.ofSeconds 1))).run ⟨.empty⟩
  rw [run_opened_empty hb 0] at h₀
  obtain ⟨gone₁, h₁⟩ := Disk.Program.fares_run (Log.MayFail (.sample (.ofSeconds 1)) true) 0
    ((fresh (.sample (.ofSeconds 1))).create (Log.sampleMoment 0) []) ⟨.empty⟩
  have hrun : Tries (.sample (.ofSeconds 1)) ⟨.empty⟩ (Log.sampleMoment 0).today sampleFirst.2
      sampleFirst.1.2 (gone₀ ++ gone₁) :=
    .created (.opened (Log.sampleMoment 0).today h₀) (CivilDate.upTo_refl _)
      (Log.plain_sampleMoment 0) h₁
  have hdate : (Log.sampleMoment 0).today.upTo (Log.sampleMoment 9).today := CivilDate.upTo_refl _
  obtain ⟨gone₂, h₂⟩ := Disk.Program.fares_runWithout isOpening .noSpace 9
    (sampleFirst.1.2.create (Log.sampleMoment 9) []) sampleFirst.2
  have h₂ := h₂.mono (Q := Log.MayFail (.sample (.ofSeconds 1)) false) fun d r hr => by
    cases r <;> trivial
  obtain ⟨e, he⟩ : ∃ e, sampleSecond.1.1 = .error e := by
    have herror : sampleSecond.1.1.isOk = false := by decide +kernel
    cases hr : sampleSecond.1.1 with
    | error e => exact ⟨e, rfl⟩
    | ok task =>
        rw [hr] at herror
        cases herror
  have hpair : sampleSecond.1 = (.error e, sampleSecond.1.2) := by rw [← he]
  replace h₂ : Fares (Log.MayFail (.sample (.ofSeconds 1)) false) 9
      (sampleFirst.1.2.create (Log.sampleMoment 9) []) sampleFirst.2 gone₂
      (.error e, sampleSecond.1.2) sampleSecond.2 := hpair ▸ h₂
  obtain ⟨-, htasks, -, hunharmed⟩ := (failed_call_unharmed hb hrun hdate
    (Log.plain_sampleMoment 9)).1 [] e _ gone₂ _ h₂
  exact ⟨_, hrun, by decide +kernel, by decide +kernel, e, gone₂, h₂, htasks, hunharmed⟩

end Reachability.Store
