import Reachability.Proofs.Log.Found
import Reachability.Proofs.Log.Ledger

set_option autoImplicit false

/-! # Damaged lines are told

In each file of a log the last line with something on it may be damaged; it is passed over, in a
segment as well as in the active file. A damaged line that something stands behind in its file is
never passed over: nothing is read then, the first such line is told, and no file is changed. -/

namespace Reachability.Log

open Disk (Place)
open Segment (IsDamaged Sound SpoiledAt entriesOf lines newline)

/-- Whatever bytes the files of a log hold, it can be read just if in each of them every damaged
    line is the last one with something on it. Then the entries are those on all lines, file by
    file. Otherwise the error tells the first file that has another damaged line, and the first one
    of these, and the disk is as before. -/
theorem replay_of_any_files {log : Log} {d : Disk} {here : Place} {base : String}
    {active : Option Kept} {old : List (SegmentFile × List UInt8)}
    (h : log.Finds d here base active old) (now : Int) :
    ((∃ r d', log.replay.run.run now d = (.ok r, d')) ↔
        ∀ f ∈ log.files active old, Sound (lines f.2)) ∧
      (∀ r d', log.replay.run.run now d = (.ok r, d') →
        r.entries = (log.files active old).flatMap fun f => entriesOf f.2) ∧
      ((¬ ∀ f ∈ log.files active old, Sound (lines f.2)) →
        ∃ before f rest n, log.files active old = before ++ f :: rest ∧
          (∀ g ∈ before, Sound (lines g.2)) ∧ SpoiledAt (lines f.2) n ∧
          log.replay.run.run now d
            = (.error (.corrupt (String.ofList f.1) (n + 1) damage), d)) := by
  refine ⟨⟨fun ⟨r, d', hrun⟩ => h.sound_of_run_replay hrun, fun hs => ?_⟩, fun r d' hrun => ?_,
    fun hs => ?_⟩
  · obtain ⟨r, d', hrun, -⟩ := h.run_replay_of_sound hs now
    exact ⟨r, d', hrun⟩
  · obtain ⟨r', d'', hrun', hentries⟩ := h.run_replay_of_sound (h.sound_of_run_replay hrun) now
    rw [hrun] at hrun'
    cases hrun'
    exact hentries
  · rcases sound_or_spoiledAt_files (log.files active old) with
      hsound | ⟨before, f, rest, n, hsplit, hbefore, hf⟩
    · exact absurd hsound hs
    · exact ⟨before, f, rest, n, hsplit, hbefore, hf, h.run_replay_spoiledAt hsplit hbefore hf now⟩

/-- A segment with a damaged line before an entry cannot be read, and it stays as it is. -/
theorem replay_of_damaged_segment :
    let d := foundDisk ([0x78, newline] ++ Segment.line (sampleEntry 1)) []
    ∃ path line, foundLog.replay.run.run 0 d = (.error (.corrupt path line damage), d) := by
  intro d
  have h : foundLog.Finds d [] "tasks.json" _ _ := finds_foundDisk _ _
  obtain ⟨-, -, hspoiled⟩ := replay_of_any_files h 0
  obtain ⟨before, f, rest, n, -, -, -, hrun⟩ := hspoiled fun hs =>
    absurd (hs _ (List.mem_cons_self ..)) (by decide +kernel)
  exact ⟨_, _, hrun⟩

/-- Damaged lines are in the newest file only, and there only the last line with something on it is
    damaged. -/
def OnlyNewestTorn (fs : List (List Char × List UInt8)) : Prop :=
  (∀ f ∈ fs.dropLast, ∀ l ∈ lines f.2, ¬ IsDamaged l) ∧ ∀ f ∈ fs.getLast?, Sound (lines f.2)

/-- A log can also be read if the last line of a segment is damaged and there are newer files. -/
theorem not_forall_onlyNewestTorn :
    ¬ ∀ (log : Log) (d : Disk) (here : Place) (base : String) (active : Option Kept)
      (old : List (SegmentFile × List UInt8)) (now : Int), log.Finds d here base active old →
        ((∃ r d', log.replay.run.run now d = (.ok r, d')) ↔
          OnlyNewestTorn (log.files active old)) := by
  intro hall
  have h := finds_foundDisk [0x78, newline] (Segment.line (sampleEntry 1))
  have hs : ∀ f ∈ foundLog.files (some ⟨Segment.line (sampleEntry 1), 0⟩)
      [(foundSegment, [0x78, newline])], Sound (lines f.2) := by
    decide +kernel
  obtain ⟨r, d', hrun, -⟩ := h.run_replay_of_sound hs 0
  have hnewest := (hall _ _ _ _ _ _ 0 h).1 ⟨r, d', hrun⟩
  exact hnewest.1 _ (List.mem_cons_self ..) [0x78, newline] (by decide +kernel) (by decide +kernel)

end Reachability.Log
