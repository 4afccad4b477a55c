import Reachability.Proofs.Log.Recovery
import Reachability.Proofs.Store.Agreement

set_option autoImplicit false

/-! # Processes that are stopped

One process after another opens the store of a directory, works with it and is stopped, perhaps
within an append or while it opens the store. The next one finds what was written before
(`Recoverable`): the entries of all operations that were answered, and the entry of an operation
within which its process was stopped if all bytes of that entry had been written. -/

namespace Reachability.Store

open Disk (Place)
open Disk.Program (Ends Stops)

/-- The entry of an operation, if the operation was answered. -/
def acknowledged {α : Type} (e : Log.Entry) : Except StoreError α → List Log.Entry
  | .ok _ => [e]
  | .error _ => []

/-- The processes so far, on a disk that is `d₀` before the first: the date, the disk, the store of
    the process that is running, and the entries that count. The date does not go back. The accesses
    that write a line may fail; then cutting the file back does not. -/
inductive Processes (log : Log) (d₀ : Disk) :
    CivilDate → Disk → Option Store → List Log.Entry → Prop where
  | begun (today : CivilDate) : Processes log d₀ today d₀ none []
  | opened {today : CivilDate} {d d' : Disk} {es : List Log.Entry} {now : Int} {s : Store}
      (h : Processes log d₀ today d none es)
      (hrun : (opened log).run.run now d = (.ok s, d')) : Processes log d₀ today d' (some s) es
  | stoppedOpening {today : CivilDate} {d d' : Disk} {es : List Log.Entry} {now : Int}
      {bs : List UInt8} (h : Processes log d₀ today d none es)
      (hstop : Stops now (Store.opened log).run d bs d') : Processes log d₀ today d' none es
  | created {today : CivilDate} {d d' : Disk} {s s' : Store} {es : List Log.Entry}
      {moment : Moment} {links : List String} {answer : Except StoreError Task}
      (h : Processes log d₀ today d (some s) es) (hdate : today.upTo moment.today)
      (hplain : moment.today.Plain) (hstamp : moment.stamp.Valid)
      (hends : Ends Log.IsWriting moment.seconds (s.create moment links) d (answer, s') d') :
      Processes log d₀ moment.today d' (some s')
        (es ++ acknowledged (createEntry moment (s.nextTask links)) answer)
  | stoppedCreating {today : CivilDate} {d d' : Disk} {s : Store} {es : List Log.Entry}
      {moment : Moment} {links : List String} {bs : List UInt8}
      (h : Processes log d₀ today d (some s) es) (hdate : today.upTo moment.today)
      (hplain : moment.today.Plain) (hstamp : moment.stamp.Valid)
      (hstop : Stops moment.seconds (s.create moment links) d bs d') :
      Processes log d₀ moment.today d' none
        (es ++ Log.reached (createEntry moment (s.nextTask links)) bs)
  | updated {today : CivilDate} {d d' : Disk} {s s' : Store} {es : List Log.Entry}
      {moment : Moment} {id : TaskId} {result : Results} {answer : Except StoreError Unit}
      (h : Processes log d₀ today d (some s) es) (hdate : today.upTo moment.today)
      (hplain : moment.today.Plain) (hstamp : moment.stamp.Valid)
      (hends : Ends Log.IsWriting moment.seconds (s.update moment id result) d (answer, s') d') :
      Processes log d₀ moment.today d' (some s')
        (es ++ acknowledged (updateEntry moment id result) answer)
  | stoppedUpdating {today : CivilDate} {d d' : Disk} {s : Store} {es : List Log.Entry}
      {moment : Moment} {id : TaskId} {result : Results} {bs : List UInt8}
      (h : Processes log d₀ today d (some s) es) (hdate : today.upTo moment.today)
      (hplain : moment.today.Plain) (hstamp : moment.stamp.Valid)
      (hstop : Stops moment.seconds (s.update moment id result) d bs d') :
      Processes log d₀ moment.today d' none (es ++ Log.reached (updateEntry moment id result) bs)
  | stopped {today : CivilDate} {d : Disk} {s : Store} {es : List Log.Entry}
      (h : Processes log d₀ today d (some s) es) : Processes log d₀ today d none es

/-! ## What every process leaves behind -/

/-- What a process finds in the directory: its lines are whole as long as it is running. -/
def Finds (log : Log) (d₀ : Disk) (here : Place) (base : String) (d : Disk) (l : Log.Ledger) :
    Option Store → Prop
  | none => log.Frays d₀ here base d l
  | some s => s.log = log ∧ log.Holds d₀ here base d l.shelf

/-- The entries that count are on the disk. -/
def Recoverable (log : Log) (d₀ : Disk) (here : Place) (base : String) (today : CivilDate)
    (d : Disk) (live : Option Store) (es : List Log.Entry) : Prop :=
  ∃ l : Log.Ledger, Finds log d₀ here base d l live ∧ l.Orderly log today ∧ l.entries = es ∧
    ∀ e ∈ l.entries, e.Valid

section Recoverable

variable {log : Log} {d₀ d d' : Disk} {here : Place} {base : String} {today : CivilDate}
  {live : Option Store} {s s' : Store} {es : List Log.Entry} {moment : Moment}

/-- What a stopped process leaves, the next one finds. -/
theorem Finds.frays {l : Log.Ledger} (h : Finds log d₀ here base d l live) :
    log.Frays d₀ here base d l := by
  cases live with
  | none => exact h
  | some s => exact h.2.frays

theorem Recoverable.stopped (h : Recoverable log d₀ here base today d live es) :
    Recoverable log d₀ here base today d none es := by
  obtain ⟨l, hfinds, h⟩ := h
  exact ⟨l, hfinds.frays, h⟩

theorem Recoverable.mono (h : Recoverable log d₀ here base today d live es)
    {today' : CivilDate} (hdate : today.upTo today') :
    Recoverable log d₀ here base today' d live es := by
  obtain ⟨l, hfinds, ho, h⟩ := h
  exact ⟨l, hfinds, ho.mono hdate, h⟩

variable (hb : log.Begins d₀ here base)

include hb

theorem recoverable_empty : Recoverable log d₀ here base today d₀ none [] := by
  have hempty : log.Holds d₀ here base d₀ Log.Ledger.empty.shelf := hb.holds_empty
  exact ⟨.empty, hempty.frays, Log.Ledger.orderly_empty log today, rfl, fun e he => by cases he⟩

/-- The next process reads the entries that count. -/
theorem Recoverable.run_replay (h : Recoverable log d₀ here base today d live es) (now : Int) :
    ∃ r d', log.replay.run.run now d = (.ok r, d') ∧ r.entries = es ∧
      Recoverable log d₀ here base today d' (some ⟨log, .ofEntries es⟩) es := by
  obtain ⟨l, hfinds, ho, rfl, hv⟩ := h
  obtain ⟨r, d', l', hrun, hr, hd', hclosed, hl'⟩ :=
    hfinds.frays.run_replay hb ho.ascending hv now
  refine ⟨r, d', hrun, hr, l', ⟨rfl, hd'⟩, ?_, hl', ?_⟩
  · exact ho.of_closed hclosed
  · rw [hl']
    exact hv

theorem Recoverable.opened (h : Recoverable log d₀ here base today d live es) {now : Int}
    (hrun : (opened log).run.run now d = (.ok s, d')) :
    Recoverable log d₀ here base today d' (some s) es := by
  obtain ⟨r, d₁, hreplay, hr, h'⟩ := h.run_replay hb now
  have hopened := run_load (s := fresh log) hreplay
  rw [Store.opened, hopened, hr] at hrun
  cases hrun
  exact h'

theorem Recoverable.stoppedOpening (h : Recoverable log d₀ here base today d live es) {now : Int}
    {bs : List UInt8} (hstop : Stops now (Store.opened log).run d bs d') :
    Recoverable log d₀ here base today d' none es := by
  obtain ⟨l, hfinds, ho, hl, hv⟩ := h
  have hreplay : Stops now log.replay.run d bs d' :=
    Log.Action.stops_bind_done hstop fun _ => ⟨_, rfl⟩
  exact ⟨l, hfinds.frays.stops_replay hb hv hreplay, ho, hl, hv⟩

variable (hzero : log.retention = .zero)

include hzero

/-- An append adds its entry if it is answered. -/
theorem Recoverable.ends_append (h : Recoverable log d₀ here base today d (some s) es)
    (hdate : today.upTo moment.today) (hplain : moment.today.Plain) {e : Log.Entry} (he : e.Valid)
    {x : Except StoreError Unit} (hs' : s'.log = log)
    (hends : Ends Log.IsWriting moment.seconds (s.log.append moment e).run d x d') :
    Recoverable log d₀ here base moment.today d' (some s') (es ++ acknowledged e x) := by
  obtain ⟨l, ⟨hlog, hd⟩, ho, rfl, hv⟩ := h
  rw [hlog] at hends
  obtain ⟨l', hd', ho', ⟨rfl, hentries⟩ | ⟨err, rfl, hentries⟩⟩ :=
    ho.ends_append hb hd hzero hdate hplain hends
  · refine ⟨l', ⟨hs', hd'⟩, ho', hentries, ?_⟩
    rw [hentries]
    exact List.forall_mem_append.2 ⟨hv, List.forall_mem_singleton.2 he⟩
  · refine ⟨l', ⟨hs', hd'⟩, ho', ?_, ?_⟩
    · rw [hentries, acknowledged, List.append_nil]
    · rw [hentries]
      exact hv

/-- An append that is stopped adds its entry if that has been written. -/
theorem Recoverable.stops_append (h : Recoverable log d₀ here base today d (some s) es)
    (hdate : today.upTo moment.today) (hplain : moment.today.Plain) {e : Log.Entry} (he : e.Valid)
    {bs : List UInt8} (hstop : Stops moment.seconds (s.log.append moment e).run d bs d') :
    Recoverable log d₀ here base moment.today d' none (es ++ Log.reached e bs) := by
  obtain ⟨l, ⟨hlog, hd⟩, ho, rfl, hv⟩ := h
  rw [hlog] at hstop
  obtain ⟨l', hd', ho', hentries⟩ := ho.stops_append hb hd hzero hdate hplain hstop
  refine ⟨l', hd', ho', hentries, ?_⟩
  rw [hentries, Log.reached]
  split
  · exact List.forall_mem_append.2 ⟨hv, List.forall_mem_singleton.2 he⟩
  · rw [List.append_nil]
    exact hv

theorem Recoverable.created (h : Recoverable log d₀ here base today d (some s) es)
    (hdate : today.upTo moment.today) (hplain : moment.today.Plain) (hstamp : moment.stamp.Valid)
    {links : List String} {answer : Except StoreError Task}
    (hends : Ends Log.IsWriting moment.seconds (s.create moment links) d (answer, s') d') :
    Recoverable log d₀ here base moment.today d' (some s')
      (es ++ acknowledged (createEntry moment (s.nextTask links)) answer) := by
  have hlog : s.log = log := h.choose_spec.1.1
  have he : (createEntry moment (s.nextTask links)).Valid := hstamp
  rcases ends_create hends with ⟨-, hr, rfl⟩ | ⟨hlast, x, happend, hr⟩
  · cases hr
    rw [acknowledged, List.append_nil]
    exact h.mono hdate
  · rcases hr with ⟨rfl, hr⟩ | ⟨e, rfl, hr⟩
    · cases hr
      exact h.ends_append hb hzero hdate hplain he hlog happend
    · cases hr
      exact h.ends_append hb hzero hdate hplain he hlog happend

theorem Recoverable.updated (h : Recoverable log d₀ here base today d (some s) es)
    (hdate : today.upTo moment.today) (hplain : moment.today.Plain) (hstamp : moment.stamp.Valid)
    {id : TaskId} {result : Results} {answer : Except StoreError Unit}
    (hends : Ends Log.IsWriting moment.seconds (s.update moment id result) d (answer, s') d') :
    Recoverable log d₀ here base moment.today d' (some s')
      (es ++ acknowledged (updateEntry moment id result) answer) := by
  have hlog : s.log = log := h.choose_spec.1.1
  have he : (updateEntry moment id result).Valid := hstamp
  rcases ends_update hends with ⟨-, hr, rfl⟩ | ⟨-, x, happend, hr⟩
  · cases hr
    rw [acknowledged, List.append_nil]
    exact h.mono hdate
  · rcases hr with ⟨rfl, hr⟩ | ⟨e, rfl, hr⟩
    · cases hr
      exact h.ends_append hb hzero hdate hplain he hlog happend
    · cases hr
      exact h.ends_append hb hzero hdate hplain he hlog happend

theorem Recoverable.stoppedCreating (h : Recoverable log d₀ here base today d (some s) es)
    (hdate : today.upTo moment.today) (hplain : moment.today.Plain) (hstamp : moment.stamp.Valid)
    {links : List String} {bs : List UInt8}
    (hstop : Stops moment.seconds (s.create moment links) d bs d') :
    Recoverable log d₀ here base moment.today d' none
      (es ++ Log.reached (createEntry moment (s.nextTask links)) bs) := by
  have he : (createEntry moment (s.nextTask links)).Valid := hstamp
  rcases stops_create hstop with ⟨rfl, rfl⟩ | hstop
  · rw [Log.reached_nil, List.append_nil]
    exact (h.mono hdate).stopped
  · exact h.stops_append hb hzero hdate hplain he hstop

theorem Recoverable.stoppedUpdating (h : Recoverable log d₀ here base today d (some s) es)
    (hdate : today.upTo moment.today) (hplain : moment.today.Plain) (hstamp : moment.stamp.Valid)
    {id : TaskId} {result : Results} {bs : List UInt8}
    (hstop : Stops moment.seconds (s.update moment id result) d bs d') :
    Recoverable log d₀ here base moment.today d' none
      (es ++ Log.reached (updateEntry moment id result) bs) := by
  have he : (updateEntry moment id result).Valid := hstamp
  rcases stops_update hstop with ⟨rfl, rfl⟩ | hstop
  · rw [Log.reached_nil, List.append_nil]
    exact (h.mono hdate).stopped
  · exact h.stops_append hb hzero hdate hplain he hstop

theorem Processes.recoverable (h : Processes log d₀ today d live es) :
    Recoverable log d₀ here base today d live es := by
  induction h with
  | begun => exact recoverable_empty hb
  | opened _ hrun ih => exact ih.opened hb hrun
  | stoppedOpening _ hstop ih => exact ih.stoppedOpening hb hstop
  | created _ hdate hplain hstamp hends ih =>
      exact ih.created hb hzero hdate hplain hstamp hends
  | stoppedCreating _ hdate hplain hstamp hstop ih =>
      exact ih.stoppedCreating hb hzero hdate hplain hstamp hstop
  | updated _ hdate hplain hstamp hends ih =>
      exact ih.updated hb hzero hdate hplain hstamp hends
  | stoppedUpdating _ hdate hplain hstamp hstop ih =>
      exact ih.stoppedUpdating hb hzero hdate hplain hstamp hstop
  | stopped _ ih => exact ih.stopped

end Recoverable

/-- Whatever processes there were and wherever they were stopped, the next one opens the store: it
    reads just the entries that count, its index is what they add up to, and from then on the
    directory is read without a change. -/
theorem opened_recovers {log : Log} {d₀ : Disk} {here : Place} {base : String}
    (hb : log.Begins d₀ here base) (hzero : log.retention = .zero) {today : CivilDate} {d : Disk}
    {live : Option Store} {es : List Log.Entry} (h : Processes log d₀ today d live es)
    (now : Int) : ∃ r d', log.replay.run.run now d = (.ok r, d') ∧ r.entries = es ∧
      (opened log).run.run now d = (.ok ⟨log, .ofEntries es⟩, d') ∧
      ∀ later, (opened log).run.run later d' = (.ok ⟨log, .ofEntries es⟩, d') := by
  obtain ⟨r, d', hreplay, rfl, l, ⟨-, hd⟩, ho, hl, hv⟩ := (h.recoverable hb hzero).run_replay hb now
  refine ⟨r, d', hreplay, rfl, run_load (s := fresh log) hreplay, fun later => ?_⟩
  rw [← hl]
  exact run_opened hb hd ho.ascending hv later

theorem opened_recovers_torn_line : ∃ today d bs, bs.length = 5 ∧
    Processes (.sample .zero) ⟨.empty⟩ today d none
      ([] ++ Log.reached (createEntry (Log.sampleMoment 0)
        ((fresh (.sample .zero)).nextTask ["http://localhost"])) bs) ∧
    ∃ r d', (Log.sample .zero).replay.run.run 0 d = (.ok r, d') ∧ r.entries = [] ∧
      (opened (.sample .zero)).run.run 0 d = (.ok ⟨.sample .zero, .ofEntries []⟩, d') ∧
      ∀ later, (opened (.sample .zero)).run.run later d'
        = (.ok ⟨.sample .zero, .ofEntries []⟩, d') := by
  have hb := Log.begins_sample .zero
  have hempty : Log.Holds _ _ _ _ _ Log.Ledger.empty.shelf := hb.holds_empty
  have hopened : (opened (.sample .zero)).run.run 0 ⟨.empty⟩
      = (.ok (fresh (.sample .zero)), ⟨.empty⟩) :=
    run_opened hb hempty .nil (fun e he => by cases he) 0
  obtain ⟨bs, d, hstop, hbs, hreached⟩ : ∃ bs d, Stops 0 (create (fresh (.sample .zero))
      (Log.sampleMoment 0) ["http://localhost"]) ⟨.empty⟩ bs d ∧ bs.length = 5 ∧
      Log.reached (createEntry (Log.sampleMoment 0)
        ((fresh (.sample .zero)).nextTask ["http://localhost"])) bs = [] := by
    refine ⟨_, _, .after (.after (.during (.added 5 rfl))), ?_⟩
    decide +kernel
  have h := Processes.stoppedCreating (.opened (.begun _) hopened) (CivilDate.upTo_refl _)
    (Log.plain_sampleMoment 0) (Log.valid_sampleMoment 0) hstop
  refine ⟨_, d, bs, hbs, h, ?_⟩
  have hrecovers := opened_recovers hb rfl h 0
  rwa [hreached] at hrecovers

end Reachability.Store
