import Reachability.Proofs.Store.Basic

set_option autoImplicit false

/-! # The log and the index agree

A store that keeps its segments for ever is opened in an empty directory. Whatever it does then, and
however its appends fail, what is in its log adds up to its index (`Agrees`): a store that is opened
afresh has the same tasks, and it gives no number again that was given before. -/

namespace Reachability.Store

open Disk (Place)
open Disk.Program (Ends)

/-- The number of a task that has been created. -/
def createdId : Except StoreError Task → List TaskId
  | .ok task => [task.id]
  | .error _ => []

/-- A run of a store that has been opened, on a disk that is `d₀` before: the date, the disk, the
    store, and the numbers of the tasks that were created. The date does not go back. The accesses
    that write a line may fail; then cutting the file back does not. Reading from the index needs no
    step, as it changes nothing. -/
inductive Run (log : Log) (d₀ : Disk) : CivilDate → Disk → Store → List TaskId → Prop where
  | opened {now : Int} (today : CivilDate) {s : Store} {d : Disk}
      (h : (opened log).run.run now d₀ = (.ok s, d)) : Run log d₀ today d s []
  | created {today : CivilDate} {d d' : Disk} {s s' : Store} {ids : List TaskId} {moment : Moment}
      {links : List String} {answer : Except StoreError Task} (h : Run log d₀ today d s ids)
      (hdate : today.upTo moment.today) (hplain : moment.today.Plain) (hstamp : moment.stamp.Valid)
      (hends : Ends Log.IsWriting moment.seconds (s.create moment links) d (answer, s') d') :
      Run log d₀ moment.today d' s' (ids ++ createdId answer)
  | updated {today : CivilDate} {d d' : Disk} {s s' : Store} {ids : List TaskId} {moment : Moment}
      {id : TaskId} {result : Results} {answer : Except StoreError Unit}
      (h : Run log d₀ today d s ids) (hdate : today.upTo moment.today)
      (hplain : moment.today.Plain) (hstamp : moment.stamp.Valid)
      (hends : Ends Log.IsWriting moment.seconds (s.update moment id result) d (answer, s') d') :
      Run log d₀ moment.today d' s' ids
  | loaded {today : CivilDate} {d d' : Disk} {s s' : Store} {ids : List TaskId} {now : Int}
      (h : Run log d₀ today d s ids) (hload : s.load.run.run now d = (.ok s', d')) :
      Run log d₀ today d' s' ids

/-- The entries of a ledger add up to the index of a store, but for numbers that were spent on tasks
    that could not be written. -/
structure Agrees (log : Log) (l : Log.Ledger) (s : Store) (ids : List TaskId) : Prop where
  log : s.log = log
  valid : ∀ e ∈ l.entries, e.Valid
  tasks : s.index.tasks = (Index.ofEntries l.entries).tasks
  nextId : (Index.ofEntries l.entries).nextId ≤ s.index.nextId
  ids : ∀ id ∈ ids, id < (Index.ofEntries l.entries).nextId

section Load

variable {log : Log} {d₀ d : Disk} {here : Place} {base : String} {l : Log.Ledger}
  (hb : log.Begins d₀ here base) (h : log.Holds d₀ here base d l.shelf)

include hb h

/-- A store that is loaded has the index that its log adds up to. -/
theorem run_load_ledger {s : Store} (hlog : s.log = log) (hasc : l.closed.Ascending)
    (hv : ∀ e ∈ l.entries, e.Valid) (now : Int) :
    s.load.run.run now d = (.ok { s with index := .ofEntries l.entries }, d) := by
  have hreplay : s.log.replay.run.run now d = (.ok l.replay, d) := by
    rw [hlog]
    exact h.run_replay hb hv now
  rw [run_load hreplay, l.replay_entries hasc]

theorem run_opened (hasc : l.closed.Ascending) (hv : ∀ e ∈ l.entries, e.Valid) (now : Int) :
    (opened log).run.run now d = (.ok ⟨log, .ofEntries l.entries⟩, d) :=
  run_load_ledger hb h rfl hasc hv now

end Load

/-- A store that is opened where its log begins has no tasks. -/
theorem run_opened_empty {log : Log} {d₀ : Disk} {here : Place} {base : String}
    (hb : log.Begins d₀ here base) (now : Int) :
    (opened log).run.run now d₀ = (.ok (fresh log), d₀) := by
  have hempty : log.Holds d₀ here base d₀ Log.Ledger.empty.shelf := hb.holds_empty
  exact run_opened hb hempty .nil (fun e he => by cases he) now

namespace Agrees

variable {log : Log} {l l' : Log.Ledger} {s : Store} {ids : List TaskId} {moment : Moment}

theorem loaded (h : Agrees log l s ids) :
    Agrees log l { s with index := .ofEntries l.entries } ids where
  log := h.log
  valid := h.valid
  tasks := rfl
  nextId := Std.le_refl _
  ids := h.ids

/-- A number that was spent in vain leaves a gap. -/
theorem reserved (h : Agrees log l s ids) (hlast : s.index.nextId ≠ Index.lastId)
    (hentries : l'.entries = l.entries) : Agrees log l' s.reserved ids where
  log := h.log
  valid := by
    rw [hentries]
    exact h.valid
  tasks := by
    rw [hentries]
    exact h.tasks
  nextId := by
    rw [hentries]
    refine Std.le_trans h.nextId ?_
    rw [UInt64.le_iff_toNat_le]
    have := Index.toNat_idAfter hlast
    rw [Index.idAfter, if_neg hlast] at this
    show _ ≤ (s.index.nextId + 1).toNat
    omega
  ids := by
    rw [hentries]
    exact h.ids

theorem created (h : Agrees log l s ids) (hlast : s.index.nextId ≠ Index.lastId)
    (hstamp : moment.stamp.Valid) {links : List String}
    (hentries : l'.entries = l.entries ++ [createEntry moment (s.nextTask links)]) :
    Agrees log l' (s.reserved.addTask (s.nextTask links)) (ids ++ [s.index.nextId]) := by
  have hindex : Index.ofEntries l'.entries
      = (Index.ofEntries l.entries).apply (.create (s.nextTask links)) := by
    rw [hentries, Index.ofEntries_concat]
    rfl
  have hafter : Index.idAfter s.index.nextId = s.index.nextId + 1 := if_neg hlast
  have hlt : s.index.nextId < Index.idAfter s.index.nextId :=
    (Index.lt_idAfter_iff hlast).2 (Std.le_refl _)
  refine ⟨h.log, ?_, ?_, ?_, ?_⟩
  · rw [hentries]
    intro e he
    rcases List.mem_append.1 he with he | he
    · exact h.valid e he
    · rw [List.mem_singleton.1 he]
      exact hstamp
  · rw [hindex]
    show s.index.tasks.insert _ _ = (Index.ofEntries l.entries).tasks.insert _ _
    rw [h.tasks]
  · rw [hindex]
    show max (Index.ofEntries l.entries).nextId (Index.idAfter s.index.nextId)
      ≤ s.index.nextId + 1
    rw [Index.max_le_iff, ← hafter]
    exact ⟨Std.le_trans h.nextId (Std.le_of_lt hlt), Std.le_refl _⟩
  · rw [hindex]
    intro id hid
    refine Index.lt_max_iff.2 ?_
    rcases List.mem_append.1 hid with hid | hid
    · exact .inl (h.ids id hid)
    · rw [List.mem_singleton.1 hid]
      exact .inr hlt

theorem updated (h : Agrees log l s ids) (hstamp : moment.stamp.Valid) {id : TaskId}
    {result : Results}
    (hentries : l'.entries = l.entries ++ [updateEntry moment id result]) :
    Agrees log l' (s.setResult id result) ids := by
  have hindex : Index.ofEntries l'.entries
      = (Index.ofEntries l.entries).apply (.update id result) := by
    rw [hentries, Index.ofEntries_concat]
    rfl
  refine ⟨h.log, ?_, ?_, ?_, ?_⟩
  · rw [hentries]
    intro e he
    rcases List.mem_append.1 he with he | he
    · exact h.valid e he
    · rw [List.mem_singleton.1 he]
      exact hstamp
  · rw [hindex]
    show Index.setResult s.index.tasks id result
      = Index.setResult (Index.ofEntries l.entries).tasks id result
    rw [h.tasks]
  · rw [hindex]
    exact h.nextId
  · rw [hindex]
    exact h.ids

theorem unchanged (h : Agrees log l s ids) (hentries : l'.entries = l.entries) :
    Agrees log l' s ids := by
  refine ⟨h.log, ?_, ?_, ?_, ?_⟩ <;> rw [hentries]
  · exact h.valid
  · exact h.tasks
  · exact h.nextId
  · exact h.ids

end Agrees

/-! ## Runs -/

/-- What every step of a run keeps. -/
def Sound (log : Log) (d₀ : Disk) (here : Place) (base : String) (today : CivilDate) (d : Disk)
    (s : Store) (ids : List TaskId) : Prop :=
  ∃ l : Log.Ledger, log.Holds d₀ here base d l.shelf ∧ l.Orderly log today ∧ Agrees log l s ids

section Sound

variable {log : Log} {d₀ d d' : Disk} {here : Place} {base : String} {today : CivilDate}
  {s s' : Store} {ids : List TaskId} {moment : Moment} (hb : log.Begins d₀ here base)
  (hzero : log.retention = .zero)

include hb

theorem sound_empty : Sound log d₀ here base today d₀ (fresh log) [] :=
  ⟨.empty, hb.holds_empty, Log.Ledger.orderly_empty log today, rfl, nofun, rfl, Std.le_refl _, nofun⟩

theorem Sound.load (h : Sound log d₀ here base today d s ids) {now : Int}
    (hload : s.load.run.run now d = (.ok s', d')) : Sound log d₀ here base today d' s' ids := by
  obtain ⟨l, hd, ho, ha⟩ := h
  rw [run_load_ledger hb hd ha.log ho.ascending ha.valid now] at hload
  cases hload
  exact ⟨l, hd, ho, ha.loaded⟩

include hzero

theorem Sound.create (h : Sound log d₀ here base today d s ids) (hdate : today.upTo moment.today)
    (hplain : moment.today.Plain) (hstamp : moment.stamp.Valid) {links : List String}
    {answer : Except StoreError Task}
    (hends : Ends Log.IsWriting moment.seconds (s.create moment links) d (answer, s') d') :
    Sound log d₀ here base moment.today d' s' (ids ++ createdId answer) := by
  obtain ⟨l, hd, ho, ha⟩ := h
  rcases ends_create hends with ⟨-, hr, rfl⟩ | ⟨hlast, x, happend, hr⟩
  · cases hr
    rw [createdId, List.append_nil]
    exact ⟨l, hd, ho.mono hdate, ha⟩
  -- The number is spent either way; the index gets the task if the log has its entry.
  · rw [ha.log] at happend
    obtain ⟨l', hd', ho', ⟨rfl, hentries⟩ | ⟨e, rfl, hentries⟩⟩ :=
      ho.ends_append hb hd hzero hdate hplain happend
    · refine ⟨l', hd', ho', ?_⟩
      rcases hr with ⟨-, hr⟩ | ⟨e, he, -⟩
      · cases hr
        exact ha.created hlast hstamp hentries
      · cases he
    · refine ⟨l', hd', ho', ?_⟩
      rcases hr with ⟨he, -⟩ | ⟨e', -, hr⟩
      · cases he
      · cases hr
        rw [createdId, List.append_nil]
        exact ha.reserved hlast hentries

theorem Sound.update (h : Sound log d₀ here base today d s ids) (hdate : today.upTo moment.today)
    (hplain : moment.today.Plain) (hstamp : moment.stamp.Valid) {id : TaskId} {result : Results}
    {answer : Except StoreError Unit}
    (hends : Ends Log.IsWriting moment.seconds (s.update moment id result) d (answer, s') d') :
    Sound log d₀ here base moment.today d' s' ids := by
  obtain ⟨l, hd, ho, ha⟩ := h
  rcases ends_update hends with ⟨-, hr, rfl⟩ | ⟨-, x, happend, hr⟩
  · cases hr
    exact ⟨l, hd, ho.mono hdate, ha⟩
  · rw [ha.log] at happend
    obtain ⟨l', hd', ho', ⟨rfl, hentries⟩ | ⟨e, rfl, hentries⟩⟩ :=
      ho.ends_append hb hd hzero hdate hplain happend
    · refine ⟨l', hd', ho', ?_⟩
      rcases hr with ⟨-, hr⟩ | ⟨e, he, -⟩
      · cases hr
        exact ha.updated hstamp hentries
      · cases he
    · refine ⟨l', hd', ho', ?_⟩
      rcases hr with ⟨he, -⟩ | ⟨e', -, hr⟩
      · cases he
      · cases hr
        exact ha.unchanged hentries

theorem Run.sound (h : Run log d₀ today d s ids) : Sound log d₀ here base today d s ids := by
  induction h with
  | opened today h => exact (sound_empty hb).load hb h
  | created _ hdate hplain hstamp hends ih => exact ih.create hb hzero hdate hplain hstamp hends
  | updated _ hdate hplain hstamp hends ih => exact ih.update hb hzero hdate hplain hstamp hends
  | loaded _ hload ih => exact ih.load hb hload

end Sound

/-- A store that keeps its segments for ever can be opened in an empty directory, and at every point
    of every run a store that is opened afresh has the tasks of the running one. Its next number is
    not above the running one's, and above all numbers of tasks that were created. -/
theorem opened_agrees {log : Log} {d₀ : Disk} {here : Place} {base : String}
    (hb : log.Begins d₀ here base) (hzero : log.retention = .zero) :
    (∀ now, ∃ s, (opened log).run.run now d₀ = (.ok s, d₀)) ∧
      ∀ today d s ids, Run log d₀ today d s ids → ∀ now, ∃ s',
        (opened log).run.run now d = (.ok s', d) ∧ s'.index.tasks = s.index.tasks ∧
          s'.index.nextId ≤ s.index.nextId ∧ ∀ id ∈ ids, id < s'.index.nextId := by
  constructor
  · intro now
    have hempty : log.Holds d₀ here base d₀ Log.Ledger.empty.shelf := hb.holds_empty
    exact ⟨_, run_opened hb hempty .nil (fun e he => by cases he) now⟩
  · intro today d s ids hrun now
    obtain ⟨l, hd, ho, ha⟩ := hrun.sound hb hzero
    exact ⟨_, run_opened hb hd ho.ascending ha.valid now, ha.tasks.symm, ha.nextId, ha.ids⟩

theorem opened_agrees_first_task : ∃ today d s, Run (.sample .zero) ⟨.empty⟩ today d s [1] ∧ ∃ s',
    (opened (.sample .zero)).run.run 0 d = (.ok s', d) ∧ s'.index.tasks = s.index.tasks ∧
      s'.index.nextId ≤ s.index.nextId ∧ ∀ id ∈ [(1 : TaskId)], id < s'.index.nextId := by
  have hb := Log.begins_sample .zero
  have hempty : Log.Holds _ _ _ _ _ Log.Ledger.empty.shelf := hb.holds_empty
  have hopened := run_opened hb hempty .nil (fun e he => by cases he) 0
  obtain ⟨⟨⟨answer, s⟩, d⟩, hcreate, hid⟩ : ∃ r,
      (create ⟨.sample .zero, .ofEntries Log.Ledger.empty.entries⟩ (Log.sampleMoment 0)
        ["http://localhost"]).run 0 ⟨.empty⟩ = r ∧ createdId r.1.1 = [1] :=
    ⟨_, rfl, by decide +kernel⟩
  have hends := Disk.Program.ends_run Log.IsWriting 0
    (create ⟨.sample .zero, .ofEntries Log.Ledger.empty.entries⟩ (Log.sampleMoment 0)
      ["http://localhost"]) ⟨.empty⟩
  rw [hcreate] at hends
  have hrun := Run.created (.opened _ hopened) (CivilDate.upTo_refl _)
    (Log.plain_sampleMoment 0) (Log.valid_sampleMoment 0) hends
  rw [hid, List.nil_append] at hrun
  exact ⟨_, d, s, hrun, (opened_agrees hb rfl).2 _ d s _ hrun 0⟩

end Reachability.Store
