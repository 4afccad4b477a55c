import Reachability.Proofs.Log.Found
import Reachability.Proofs.Log.Framing
import Reachability.Proofs.Log.Ledger

set_option autoImplicit false

/-! # A replay leaves a clean end

Whatever bytes the files hold, once a log has been read its active file ends with whole lines: what
stood behind the last entry is gone, and the line of that entry is ended (`Mends`). So the next
replay finds nothing to mend, and an entry that is appended gets a line of its own. -/

namespace Reachability.Log

open Disk (Place)
open Segment (Clean IsTorn isEnded entriesOf kept lines newline tidy)

/-- What a replay makes of the active file. It is empty or ended afterwards, and it consists of the
    lines up to the last entry, with a newline if that had none. -/
def Mends : Option Kept → Option Kept → Prop
  | none, none => True
  | some k, some k' => isEnded k'.content = true ∧
    ∃ ls rest, lines k.content = ls ++ rest ∧ (∀ l ∈ ls.getLast?, Entry.ofBytes? l ≠ none) ∧
      (∀ l ∈ rest, Entry.ofBytes? l = none) ∧
      (k'.content = ls.flatten ∨ k'.content = ls.flatten ++ [newline])
  | _, _ => False

theorem mends_tidy (k : Kept) (t : Int) : Mends (some k) (some ⟨tidy k.content, t⟩) := by
  obtain ⟨rest, hls, hrest, hlast⟩ := Segment.exists_kept (lines k.content)
  refine ⟨Segment.isEnded_tidy k.content, _, rest, hls, fun l hl => ?_, hrest, ?_⟩
  · obtain ⟨e, he⟩ := hlast l hl
    rw [he]
    exact Option.some_ne_none e
  · dsimp only
    unfold tidy
    split
    · exact .inl (List.append_nil _)
    · exact .inr rfl

section Append

variable {log : Log} {d : Disk} {here : Place} {base : String} {active : Option Kept}
  {old : List (SegmentFile × List UInt8)} (h : log.Finds d here base active old)

include h

/-- An entry is appended to the active file, or to a new one, unless a rotation is due. -/
theorem Finds.run_append (hsmall : ∀ k ∈ active, k.content.length < log.maxBytes)
    (moment : Moment) (e : Entry) :
    ∃ d', (log.append moment e).run.run moment.seconds d = (.ok (), d') ∧
      log.Finds d' here base
        (some ⟨(active.elim [] Kept.content) ++ Segment.line e, moment.seconds⟩) old := by
  cases ha : active with
  | none =>
      have hrotate : (log.rotateIfFull moment).run.run moment.seconds d = (.ok (), d) := by
        rw [rotateIfFull, Action.run_bind_ok
          (Action.run_accessIfThere_notFound (h.perform_stat_none moment.seconds ha))]
        rfl
      obtain ⟨d₁, hopen, h₁⟩ := h.openAppend_none moment.seconds ha
      obtain ⟨d₂, hline, h₂⟩ := h₁.run_writeLine rfl moment.seconds (Segment.line e)
      refine ⟨d₂, ?_, h₂⟩
      rw [Log.append, Action.run_bind_ok hrotate, Action.run_bind_ok (Action.run_access_ok hopen)]
      exact Action.run_tryCatch_ok hline
  | some k =>
      have hrotate : (log.rotateIfFull moment).run.run moment.seconds d = (.ok (), d) := by
        rw [rotateIfFull, Action.run_bind_ok
          (Action.run_accessIfThere_ok (h.perform_stat ha moment.seconds))]
        simp only [if_neg (Nat.not_le.2 (hsmall k ha))]
        rfl
      have hopen := h.perform_openAppend ha moment.seconds
      obtain ⟨d', hline, h'⟩ := h.run_writeLine ha moment.seconds (Segment.line e)
      refine ⟨d', ?_, h'⟩
      rw [Log.append, Action.run_bind_ok hrotate, Action.run_bind_ok (Action.run_access_ok hopen)]
      exact Action.run_tryCatch_ok hline

/-- Behind clean lines an entry is read as the last one. -/
theorem Finds.run_replay_appended (hold : ∀ e ∈ old, Segment.Sound (lines e.2))
    (hclean : Clean (active.elim [] Kept.content))
    (hsmall : ∀ k ∈ active, k.content.length < log.maxBytes) (moment : Moment) {e : Entry}
    (he : e.Valid) :
    ∃ d', (log.append moment e).run.run moment.seconds d = (.ok (), d') ∧
      ∀ now, log.replay.run.run now d' =
        (.ok ⟨entriesIn old ++ entriesOf (active.elim [] Kept.content) ++ [e], old.length + 1,
          false⟩, d') := by
  obtain ⟨d', happend, h'⟩ := h.run_append hsmall moment e
  obtain ⟨hclean', hentries⟩ := hclean.append_line he
  refine ⟨d', happend, fun now => ?_⟩
  rw [h'.run_replay_clean hold rfl hclean' now, hentries, List.append_assoc]

end Append

/-- Whenever a log can be read, whatever its files hold, its active file is mended, and it is told
    just if the last line with something on it was no entry. A replay after that reads the same
    entries and changes nothing. An entry that is appended without a rotation is then the last one
    that is read. -/
theorem replay_mends_once {log : Log} {d d' : Disk} {here : Place} {base : String}
    {active : Option Kept} {old : List (SegmentFile × List UInt8)} {now : Int} {r : Replay}
    (h : log.Finds d here base active old) (hrun : log.replay.run.run now d = (.ok r, d')) :
    ∃ active', log.Finds d' here base active' old ∧ Mends active active' ∧
      (r.repaired = true ↔ ∃ k, active = some k ∧ IsTorn (lines k.content)) ∧
      (∀ later, log.replay.run.run later d' = (.ok { r with repaired := false }, d')) ∧
      ∀ (moment : Moment) (e : Entry), e.Arises →
        (∀ k ∈ active', k.content.length < log.maxBytes) →
        ∃ d'', (log.append moment e).run.run moment.seconds d' = (.ok (), d'') ∧
          ∀ later, log.replay.run.run later d''
            = (.ok ⟨r.entries ++ [e], old.length + 1, false⟩, d'') := by
  obtain ⟨hold, hactive⟩ := (forall_mem_files (P := fun bs => Segment.Sound (lines bs))).1
    (h.sound_of_run_replay hrun)
  cases active with
  | none =>
      rw [h.run_replay_none hold now rfl] at hrun
      cases hrun
      refine ⟨none, h, trivial, by simp, fun later => h.run_replay_none hold later rfl,
        fun moment e he hsmall => ?_⟩
      obtain ⟨d'', happend, hreplay⟩ :=
        h.run_replay_appended hold ⟨nofun, rfl, rfl⟩ hsmall moment he.valid
      refine ⟨d'', happend, fun later => ?_⟩
      rw [hreplay later]
      simp [entriesOf, lines]
  | some k =>
      obtain ⟨torn, d₁, t, hreplay, htorn, h'⟩ :=
        h.run_replay_some hold rfl (hactive k rfl) now
      rw [hreplay] at hrun
      cases hrun
      obtain ⟨hclean, hentries⟩ := Segment.clean_tidy (hactive k rfl)
      refine ⟨_, h', mends_tidy k t, by simpa using htorn, fun later => ?_,
        fun moment e he hsmall => ?_⟩
      · rw [h'.run_replay_clean hold rfl hclean later, hentries]
      · obtain ⟨d'', happend, hreplay⟩ :=
          h'.run_replay_appended hold hclean hsmall moment he.valid
        refine ⟨d'', happend, fun later => ?_⟩
        rw [hreplay later]
        dsimp only [Option.elim]
        rw [hentries]

/-- A part of a line that was written after an entry, and ended since, is cut off once. -/
theorem replay_mends_torn_line_once :
    let d := foundDisk (Segment.line (sampleEntry 1)) (Segment.line (sampleEntry 2) ++ [0x78, newline])
    ∃ r d', foundLog.replay.run.run 0 d = (.ok r, d') ∧ r.repaired = true ∧
      ∀ later, foundLog.replay.run.run later d' = (.ok { r with repaired := false }, d') := by
  intro d
  have h : foundLog.Finds d [] "tasks.json" _ _ := finds_foundDisk _ _
  obtain ⟨torn, d', t, hrun, -⟩ := h.run_replay_some
    (by rw [List.forall_mem_singleton]; decide +kernel) rfl (by decide +kernel) 0
  obtain ⟨active', -, -, hrepaired, hagain, -⟩ := replay_mends_once h hrun
  exact ⟨_, d', hrun, hrepaired.2 ⟨_, rfl, [0x78, newline], by decide +kernel, by decide +kernel⟩, hagain⟩

end Reachability.Log
