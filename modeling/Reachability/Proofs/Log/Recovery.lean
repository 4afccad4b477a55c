import Reachability.Proofs.Log.Order

set_option autoImplicit false

/-! # After a process was stopped

A stopped process leaves a ledger whose last line may not have been written to its end (`Frays`). A
replay then reads the entries that count and makes the ledger whole again, and if it is stopped
itself, the same entries still count. -/

namespace Reachability.Log

open Disk (Place)
open Disk.Program (Stops)
open Segment (bytesOf)

/-- A disk holds a ledger, but for the end of the last line in its active file. -/
def Frays (log : Log) (d₀ : Disk) (here : Place) (base : String) (d : Disk) (l : Ledger) : Prop :=
  (l.current = none ∧ log.Holds d₀ here base d ⟨none, l.closed.shelve⟩) ∨
    ∃ k, log.Holds d₀ here base d ⟨some k, l.closed.shelve⟩ ∧ Frayed l.currentEntries k.content

section Recovery

variable {log : Log} {d₀ d d' : Disk} {here : Place} {base : String} {l : Ledger} {now : Int}

theorem Holds.frays (h : log.Holds d₀ here base d l.shelf) : log.Frays d₀ here base d l := by
  cases hr : l.current with
  | none =>
      rw [Ledger.shelf, hr] at h
      exact .inl ⟨hr, h⟩
  | some r =>
      have hcurrent : l.currentEntries = r.entries := by
        rw [Ledger.currentEntries, hr]
        rfl
      rw [Ledger.shelf, hr] at h
      refine .inr ⟨r.kept, h, ?_⟩
      rw [hcurrent]
      exact .whole r.entries

variable (hb : log.Begins d₀ here base)

include hb

/-- A replay reads the entries that count, and then the disk holds their lines. -/
theorem Frays.run_replay (h : log.Frays d₀ here base d l) (hasc : l.closed.Ascending)
    (hv : ∀ e ∈ l.entries, e.Valid) (now : Int) :
    ∃ r d', ∃ l' : Ledger, log.replay.run.run now d = (.ok r, d') ∧ r.entries = l.entries ∧
      log.Holds d₀ here base d' l'.shelf ∧ l'.closed = l.closed ∧ l'.entries = l.entries := by
  have hclosed : ∀ e ∈ l.closed.entries, e.Valid := fun e he => hv e (List.mem_append_left _ he)
  rcases h with ⟨hr, h⟩ | ⟨k, h, hf⟩
  · have hshelf : log.Holds d₀ here base d l.shelf := by
      rw [Ledger.shelf, hr]
      exact h
    exact ⟨_, d, l, hshelf.run_replay hb hv now, l.replay_entries hasc, hshelf, rfl, rfl⟩
  · have hcurrent : ∀ e ∈ l.currentEntries, e.Valid := fun e he =>
      hv e (List.mem_append_right _ he)
    have hmended : ∃ r d' t, log.replay.run.run now d = (.ok r, d') ∧
        r.entries = l.closed.inOrder.entries ++ l.currentEntries ∧
        log.Holds d₀ here base d' ⟨some ⟨bytesOf l.currentEntries, t⟩, l.closed.shelve⟩ :=
      h.run_replay_frayed hb rfl rfl hf hclosed hcurrent
    obtain ⟨r, d', t, hrun, hentries, h'⟩ := hmended
    refine ⟨r, d', l.add [] t, hrun, ?_, h'.shelf_add ?_, rfl, ?_⟩
    · rw [hentries, Closed.inOrder_of_ascending hasc]
      rfl
    · rw [List.append_nil]
    · rw [Ledger.entries_add, List.append_nil]

/-- A replay that is stopped changes nothing about what counts. -/
theorem Frays.stops_replay (h : log.Frays d₀ here base d l) (hv : ∀ e ∈ l.entries, e.Valid)
    {bs : List UInt8} (hstop : Stops now log.replay.run d bs d') :
    log.Frays d₀ here base d' l := by
  rcases h with ⟨hr, h⟩ | ⟨k, h, hf⟩
  · rw [h.stops_replay_none hb rfl hstop]
    exact .inl ⟨hr, h⟩
  · have hcurrent : ∀ e ∈ l.currentEntries, e.Valid := fun e he =>
      hv e (List.mem_append_right _ he)
    exact .inr (h.stops_replay hb rfl hf hcurrent hstop)

variable {today : CivilDate} {moment : Moment}

/-- An append that is stopped adds its entry if all bytes of that have been written. -/
theorem Ledger.Orderly.stops_append (ho : l.Orderly log today)
    (h : log.Holds d₀ here base d l.shelf) (hzero : log.retention = .zero)
    (hdate : today.upTo moment.today) (hplain : moment.today.Plain) {e : Entry} {bs : List UInt8}
    (hstop : Stops moment.seconds (log.append moment e).run d bs d') :
    ∃ l' : Ledger, log.Frays d₀ here base d' l' ∧ l'.Orderly log moment.today ∧
      l'.entries = l.entries ++ reached e bs := by
  have ho := ho.mono hdate
  -- The rotation has been made or not; the entries are the same either way.
  obtain ⟨l₁, hl₁, hstopped⟩ := h.stops_append hb hzero hplain hstop
  obtain ⟨ho₁, hentries⟩ : l₁.Orderly log moment.today ∧ l₁.entries = l.entries := by
    rcases hl₁ with rfl | hrotated
    · exact ⟨ho, rfl⟩
    · exact ho.rotated hzero hplain hrotated
  rcases hstopped with ⟨rfl, h₁⟩ | ⟨n, t, rfl, h₁⟩
  · refine ⟨l₁, h₁.frays, ho₁, ?_⟩
    rw [reached_nil, List.append_nil, hentries]
  · refine ⟨l₁.add (reached e ((Segment.line e).take n)) t, .inr ⟨_, h₁, ?_⟩, ho₁.of_closed rfl, ?_⟩
    · exact frayed_take l₁.currentEntries e n
    · rw [Ledger.entries_add, hentries]

end Recovery

end Reachability.Log
