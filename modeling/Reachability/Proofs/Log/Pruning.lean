import Reachability.Proofs.Log.Order

set_option autoImplicit false

/-! # Logs whose old segments are removed

The ledger of a log follows from the calls so far (`Ledger.After`), and it holds what has been
appended but for the segments that were removed. A replay reads all of that
(`Ledger.replay_perm`), and reads it in the order in which it was appended just if the numbers of
each day ascend (`Ledger.Dated.replay_entries_iff`). -/

namespace Reachability.Log

open Disk (Place)
open Disk.Program (ends_run)

/-! ## What the order of the segments makes of a replay -/

theorem Closed.ascending_inOrder (closed : Closed) : closed.inOrder.Ascending := by
  have htrans : ∀ a b c : SegmentFile × Record,
      a.1.le b.1 = true → b.1.le c.1 = true → a.1.le c.1 = true := fun _ _ _ => SegmentFile.le_trans
  have htotal : ∀ a b : SegmentFile × Record, (a.1.le b.1 || b.1.le a.1) = true := fun a b =>
    SegmentFile.le_total a.1 b.1
  exact @List.pairwise_mergeSort _ (fun a b => a.1.le b.1) htrans htotal closed

/-- If no segment is empty and no entry is there twice, the entries tell the order of the
    segments. -/
theorem Closed.eq_of_entries_eq {a b : Closed} (hperm : a.Perm b)
    (hsolid : ∀ e ∈ a, e.2.entries ≠ []) (hnodup : a.entries.Nodup)
    (h : a.entries = b.entries) : a = b := by
  induction a generalizing b with
  | nil => exact hperm.nil_eq
  | cons x a ih =>
      obtain ⟨hx, ha, hdisjoint⟩ := List.nodup_append.1 hnodup
      cases b with
      | nil => exact (List.not_perm_cons_nil hperm).elim
      | cons y b =>
          have hy : y ∈ x :: a := hperm.mem_iff.2 (List.mem_cons_self ..)
          obtain ⟨e, es, hes⟩ := List.exists_cons_of_ne_nil (hsolid x (List.mem_cons_self ..))
          obtain ⟨f, fs, hfs⟩ := List.exists_cons_of_ne_nil (hsolid y hy)
          -- Both lists of entries start alike, and an entry is in one segment only.
          have hhead : e = f := by
            rw [entries, List.flatMap_cons, hes, entries, List.flatMap_cons, hfs] at h
            exact (List.cons.inj h).1
          have hxy : y = x := by
            rcases List.mem_cons.1 hy with hyx | hya
            · exact hyx
            · refine absurd hhead (hdisjoint e ?_ f ?_)
              · show e ∈ x.2.entries
                rw [hes]
                exact List.mem_cons_self ..
              · refine mem_entries hya ?_
                rw [hfs]
                exact List.mem_cons_self ..
          subst hxy
          rw [ih hperm.cons_inv (fun e he => hsolid e (List.mem_cons_of_mem _ he)) ha
            (List.append_cancel_left h)]

namespace Ledger

variable {log : Log} {today : CivilDate} {moment : Moment} {l l' : Ledger} {r : Record} {n : Nat}

/-- A replay reads all entries, if not in their order. -/
theorem replay_perm (l : Ledger) : l.replay.entries.Perm l.entries :=
  (l.closed.inOrder_perm.flatMap_right _).append_right _

/-- No file of the log is empty. -/
structure Solid (l : Ledger) : Prop where
  current : ∀ r, l.current = some r → r.entries ≠ []
  closed : ∀ e ∈ l.closed, e.2.entries ≠ []

/-- Entries that differ from each other are read in the order in which they were written just if
    the numbers of each day ascend. -/
theorem Dated.replay_entries_iff (h : l.Dated log today) (hsolid : l.Solid)
    (hnodup : l.entries.Nodup) : l.replay.entries = l.entries ↔ l.Numbered := by
  rw [← h.ascending_iff]
  constructor
  · intro heq
    have hentries : l.closed.entries = l.closed.inOrder.entries :=
      (List.append_cancel_right heq).symm
    rw [Closed.eq_of_entries_eq l.closed.inOrder_perm.symm hsolid.closed
      (List.nodup_append.1 hnodup).1 hentries]
    exact l.closed.ascending_inOrder
  · exact l.replay_entries

/-! ## The ledger after a rotation -/

theorem mem_entries_setAside (hr : l.current = some r) {e : Entry}
    (he : e ∈ (l.setAside log moment n r).entries) : e ∈ l.entries := by
  rw [entries, setAside, currentEntries, Option.map_none, Option.getD_none, List.append_nil] at he
  obtain ⟨s, hs, he⟩ := List.mem_flatMap.1 he
  rw [entries_of_current hr, List.mem_append]
  rcases List.mem_append.1 (List.mem_filter.1 hs).1 with hs | hs
  · exact .inl (Closed.mem_entries hs he)
  · obtain rfl := List.mem_singleton.1 hs
    exact .inr he

theorem Rotated.mem_entries (h : l.Rotated log moment l') {e : Entry} (he : e ∈ l'.entries) :
    e ∈ l.entries := by
  cases h with
  | kept => exact he
  | aside hr => exact mem_entries_setAside hr he

theorem Solid.setAside (h : l.Solid) (hr : l.current = some r) :
    (l.setAside log moment n r).Solid where
  current r' hr' := by cases hr'
  closed e he := by
    rcases List.mem_append.1 (List.mem_filter.1 he).1 with he | he
    · exact h.closed e he
    · obtain rfl := List.mem_singleton.1 he
      exact h.current r hr

theorem Solid.rotated (h : l.Solid) (hr : l.Rotated log moment l') : l'.Solid := by
  cases hr with
  | kept => exact h
  | aside hr => exact h.setAside hr

theorem Solid.add (h : l.Solid) (e : Entry) (now : Int) : (l.add [e] now).Solid where
  current r hr := by
    cases hr
    simp
  closed := h.closed

theorem Dated.rotated (h : l.Dated log moment.today) (hplain : moment.today.Plain)
    (hr : l.Rotated log moment l') : l'.Dated log moment.today := by
  cases hr with
  | kept => exact h
  | aside hr hfull hn hfree => exact h.setAside hplain hn hfree _

theorem Dated.add (h : l.Dated log today) (es : List Entry) (now : Int) :
    (l.add es now).Dated log today := ⟨h.proper, h.past, h.days, h.distinct⟩

end Ledger

/-! ## Calls -/

/-- A call of a log. -/
inductive Call where
  | append (moment : Moment) (e : Entry)
  | rotate (moment : Moment)

namespace Call

/-- When a call is made. -/
def moment : Call → Moment
  | append moment _ => moment
  | rotate moment => moment

/-- What a call does. -/
def action (log : Log) : Call → Action Unit
  | append moment e => log.append moment e
  | rotate moment => discard (log.rotate moment)

/-- The entry of a call can be read back. -/
def Valid : Call → Prop
  | append _ e => e.Valid
  | rotate _ => True

end Call

/-- The calls so far, the last one first, all of which succeeded on a disk that is `d₀` before them:
    the date and the disk. The date does not go back. -/
inductive Calls (log : Log) (d₀ : Disk) : List Call → CivilDate → Disk → Prop where
  | nil (today : CivilDate) : Calls log d₀ [] today d₀
  | cons {cs : List Call} {c : Call} {today : CivilDate} {d d' : Disk}
      (h : Calls log d₀ cs today d) (hdate : today.upTo c.moment.today)
      (hplain : c.moment.today.Plain) (hvalid : c.Valid)
      (hrun : (c.action log).run.run c.moment.seconds d = (.ok (), d')) :
      Calls log d₀ (c :: cs) c.moment.today d'

/-- The ledger after calls, the last one first. An entry is written at the end, and a segment stays
    until the first rotation at which it has been kept long enough. -/
inductive Ledger.After (log : Log) : List Call → Ledger → Prop where
  | nil : After log [] .empty
  | append {cs : List Call} {l l' : Ledger} {moment : Moment} (e : Entry) (h : After log cs l)
      (hr : l.Rotated log moment l') :
      After log (.append moment e :: cs) (l'.add [e] moment.seconds)
  | idle {cs : List Call} {l : Ledger} (moment : Moment) (h : After log cs l)
      (hr : l.current = none) : After log (.rotate moment :: cs) l
  | rotate {cs : List Call} {l : Ledger} {moment : Moment} {r : Record} {n : Nat}
      (h : After log cs l) (hr : l.current = some r)
      (hfree : log.FirstFree (l.closed.map Prod.fst) moment.today n) :
      After log (.rotate moment :: cs) (l.setAside log moment n r)

section Calls

variable {log : Log} {d₀ d d' : Disk} {here : Place} {base : String} {l : Ledger}
  {moment : Moment}

theorem Ledger.Rotated.unique {a b : Ledger} (ha : l.Rotated log moment a)
    (hb : l.Rotated log moment b) : a = b := by
  cases ha with
  | kept hsmall =>
      cases hb with
      | kept => rfl
      | aside hr hfull => exact absurd hfull (Nat.not_le.2 (hsmall _ hr))
  | aside hr hfull hn hfree =>
      cases hb with
      | kept hsmall => exact absurd hfull (Nat.not_le.2 (hsmall _ hr))
      | aside hr' hfull' hn' hfree' =>
          rw [hfree.unique hfree', Option.some.inj (hr.symm.trans hr')]

/-- Calls make one ledger. -/
theorem Ledger.After.unique {cs : List Call} {a b : Ledger} (ha : After log cs a)
    (hb : After log cs b) : a = b := by
  induction ha generalizing b with
  | nil =>
      cases hb
      rfl
  | append e _ hr ih =>
      cases hb with
      | append _ h' hr' =>
          obtain rfl := ih h'
          rw [hr.unique hr']
  | idle moment _ hr ih =>
      cases hb with
      | idle _ h' => exact ih h'
      | rotate h' hr' =>
          obtain rfl := ih h'
          rw [hr] at hr'
          cases hr'
  | rotate _ hr hfree ih =>
      cases hb with
      | idle _ h' hr' =>
          obtain rfl := ih h'
          rw [hr] at hr'
          cases hr'
      | rotate h' hr' hfree' =>
          obtain rfl := ih h'
          rw [hfree.unique hfree', Option.some.inj (hr.symm.trans hr')]

variable (hb : log.Begins d₀ here base) (h : log.Holds d₀ here base d l.shelf)

include hb h

/-- An append that succeeds rotates and writes its entry. -/
theorem Holds.appended (hplain : moment.today.Plain) {e : Entry}
    (hrun : (log.append moment e).run.run moment.seconds d = (.ok (), d')) :
    ∃ l', l.Rotated log moment l' ∧
      log.Holds d₀ here base d' (l'.add [e] moment.seconds).shelf := by
  have hends := ends_run IsWriting moment.seconds (log.append moment e).run d
  rw [hrun] at hends
  obtain ⟨es, l', hd', hsettled, ⟨-, rfl⟩ | ⟨err, herr, -⟩⟩ := h.ends_append hb hplain hends
  · cases hsettled with
    | written hr => exact ⟨_, hr, hd'⟩
  · cases herr

/-- A rotation that succeeds sets the active file aside, if there is one. -/
theorem Holds.rotated (hplain : moment.today.Plain)
    (hrun : (discard (log.rotate moment) : Action Unit).run.run moment.seconds d = (.ok (), d')) :
    l.current = none ∧ log.Holds d₀ here base d' l.shelf ∨
      ∃ r n, l.current = some r ∧ n < Text.halfWordBound ∧
        log.FirstFree (l.closed.map Prod.fst) moment.today n ∧
        log.Holds d₀ here base d' (l.setAside log moment n r).shelf := by
  cases hr : l.current with
  | none =>
      have hnone : l.shelf.active = none := by
        rw [Ledger.shelf, hr]
        rfl
      rw [Action.run_discard_ok (h.run_rotate_none hb hnone)] at hrun
      cases hrun
      exact .inl ⟨rfl, h⟩
  | some r =>
      have hk : l.shelf.active = some r.kept := by
        rw [Ledger.shelf, hr]
        rfl
      rcases h.run_moveAside hb hplain hk with ⟨-, e, hmove⟩ | ⟨n, d₁, hn, hfree, hmove, h₁⟩
      · rw [← h.run_rotate hb hk] at hmove
        rw [Action.run_discard_error hmove] at hrun
        cases hrun
      · rw [← h.run_rotate hb hk] at hmove
        rw [Action.run_discard_ok hmove] at hrun
        cases hrun
        refine .inr ⟨r, n, rfl, hn, ?_, ?_⟩
        · rwa [Ledger.shelf, Closed.map_fst_shelve] at hfree
        · rw [Ledger.shelf_setAside]
          exact h₁

end Calls

/-- What every call keeps. -/
structure Ledger.Sound (log : Log) (today : CivilDate) (l : Ledger) : Prop
    extends l.Dated log today, l.Solid where
  valid : ∀ e ∈ l.entries, e.Valid

theorem Calls.exists_after {log : Log} {d₀ d : Disk} {here : Place} {base : String}
    {cs : List Call} {today : CivilDate} (hb : log.Begins d₀ here base)
    (h : Calls log d₀ cs today d) : ∃ l : Ledger, Ledger.After log cs l ∧
      log.Holds d₀ here base d l.shelf ∧ l.Sound log today := by
  induction h with
  | nil today =>
      refine ⟨.empty, .nil, hb.holds_empty, ⟨Ledger.dated_empty log today, ⟨nofun, nofun⟩, ?_⟩⟩
      intro e he
      cases he
  | @cons cs c today d d' _ hdate hplain hvalid hrun ih =>
      obtain ⟨l, hafter, hd, hs⟩ := ih
      have hdated := hs.toDated.mono hdate
      cases c with
      | append moment e =>
          obtain ⟨l', hr, hd'⟩ := hd.appended hb hplain hrun
          refine ⟨_, hafter.append e hr, hd', ⟨(hdated.rotated hplain hr).add _ _,
            (hs.toSolid.rotated hr).add e _, ?_⟩⟩
          rw [Ledger.entries_add]
          exact List.forall_mem_append.2
            ⟨fun x hx => hs.valid x (hr.mem_entries hx), List.forall_mem_singleton.2 hvalid⟩
      | rotate moment =>
          rcases hd.rotated hb hplain hrun with ⟨hnone, hd'⟩ | ⟨r, n, hr, hn, hfree, hd'⟩
          · exact ⟨l, hafter.idle moment hnone, hd', ⟨hdated, hs.toSolid, hs.valid⟩⟩
          · exact ⟨_, hafter.rotate hr hfree, hd', ⟨hdated.setAside hplain hn hfree r,
              hs.toSolid.setAside hr,
              fun x hx => hs.valid x (Ledger.mem_entries_setAside hr hx)⟩⟩

/-- An append succeeds after all these calls as long as there is room for one more segment. -/
theorem Calls.append {log : Log} {d₀ d : Disk} {here : Place} {base : String} {cs : List Call}
    {today : CivilDate} {l : Ledger} {moment : Moment} (hb : log.Begins d₀ here base)
    (h : Calls log d₀ cs today d) (hafter : Ledger.After log cs l)
    (hdate : today.upTo moment.today) (hplain : moment.today.Plain) {e : Entry} (he : e.Valid)
    (hroom : log.HasRoom d₀ here (l.closed.map Prod.fst) moment.today) :
    ∃ d', Calls log d₀ (.append moment e :: cs) moment.today d' := by
  obtain ⟨l', hafter', hd, -⟩ := h.exists_after hb
  rw [hafter.unique hafter'] at hroom
  obtain ⟨d', hrun⟩ := hd.run_append hb hplain e hroom
  exact ⟨d', .cons h hdate hplain he hrun⟩

/-- After all calls, a replay reads what has been appended but for the segments that were removed.
    It reads that in the order in which it was appended if the numbers of each day ascend. They need
    not, and then entries that differ from each other are read in another order. -/
theorem Calls.replay_in_order_iff {log : Log} {d₀ d : Disk} {here : Place} {base : String}
    {cs : List Call} {today : CivilDate} (hb : log.Begins d₀ here base)
    (h : Calls log d₀ cs today d) :
    ∃ l : Ledger, (∀ l', Ledger.After log cs l' ↔ l' = l) ∧
      ∀ now, ∃ r, log.replay.run.run now d = (.ok r, d) ∧ r.entries.Perm l.entries ∧
        (l.Numbered → r.entries = l.entries) ∧
        (l.entries.Nodup → (r.entries = l.entries ↔ l.Numbered)) := by
  obtain ⟨l, hafter, hd, hs⟩ := h.exists_after hb
  refine ⟨l, fun l' => ⟨fun h' => h'.unique hafter, fun h' => h' ▸ hafter⟩, fun now => ?_⟩
  refine ⟨l.replay, hd.run_replay hb hs.valid now, l.replay_perm, fun hnumbered => ?_, ?_⟩
  · exact l.replay_entries (hs.toDated.ascending_iff.2 hnumbered)
  · exact hs.toDated.replay_entries_iff hs.toSolid

/-- A log that keeps its segments for fifty seconds. The third append removes the first segment of
    the day and leaves the second one. So the number of the first is taken again by the fourth. -/
theorem Calls.replay_in_order_iff_number_reused : ∃ cs today d l,
    Calls (.sample (.ofSeconds 50)) ⟨.empty⟩ cs today d ∧
      Ledger.After (.sample (.ofSeconds 50)) cs l ∧ l.entries.Nodup ∧ ¬ l.Numbered ∧
      ∃ r, (Log.sample (.ofSeconds 50)).replay.run.run 61 d = (.ok r, d) ∧
        r.entries.Perm l.entries ∧ r.entries ≠ l.entries := by
  have hb := begins_sample (.ofSeconds 50)
  have hroom := @hasRoom_sample (.ofSeconds 50)
  have hdate (a b : Int) : (sampleMoment a).today.upTo (sampleMoment b).today :=
    CivilDate.upTo_refl _
  -- What each append makes of the ledger.
  let segment (n : Nat) := (Log.sample (.ofSeconds 50)).family.segment (sampleMoment 0).today n
  let record (id : TaskId) (now : Int) : Record := ⟨[sampleEntry id], now⟩
  let call (id : TaskId) (now : Int) : Call := .append (sampleMoment now) (sampleEntry id)
  have after₁ : Ledger.After (.sample (.ofSeconds 50)) [call 1 0] ⟨some (record 1 0), []⟩ :=
    .append _ .nil (.kept nofun)
  have free₁ : (Log.sample (.ofSeconds 50)).FirstFree [] (sampleMoment 40).today 0 :=
    ⟨by decide +kernel, by decide +kernel⟩
  have after₂ : Ledger.After (.sample (.ofSeconds 50)) [call 2 40, call 1 0]
      ⟨some (record 2 40), [(segment 0, record 1 0)]⟩ :=
    .append _ after₁ (.aside rfl (by decide +kernel) (by decide) free₁)
  have free₂ : (Log.sample (.ofSeconds 50)).FirstFree [segment 0] (sampleMoment 60).today 1 :=
    ⟨by decide +kernel, by decide +kernel⟩
  have after₃ : Ledger.After (.sample (.ofSeconds 50)) [call 3 60, call 2 40, call 1 0]
      ⟨some (record 3 60), [(segment 1, record 2 40)]⟩ :=
    .append _ after₂ (.aside rfl (by decide +kernel) (by decide) free₂)
  have free₃ : (Log.sample (.ofSeconds 50)).FirstFree [segment 1] (sampleMoment 61).today 0 :=
    ⟨by decide +kernel, by decide +kernel⟩
  have after₄ : Ledger.After (.sample (.ofSeconds 50)) [call 4 61, call 3 60, call 2 40, call 1 0]
      ⟨some (record 4 61), [(segment 1, record 2 40), (segment 0, record 3 60)]⟩ :=
    .append _ after₃ (.aside rfl (by decide +kernel) (by decide) free₃)
  -- None of the appends fails.
  obtain ⟨d₁, h₁⟩ := Calls.append hb (.nil (sampleMoment 0).today) .nil (hdate 0 0)
    (plain_sampleMoment 0) (valid_sampleEntry 1) (hroom 0 (by decide) free₁)
  obtain ⟨d₂, h₂⟩ := h₁.append hb after₁ (hdate 0 40) (plain_sampleMoment 40) (valid_sampleEntry 2)
    (hroom 40 (by decide) free₁)
  obtain ⟨d₃, h₃⟩ := h₂.append hb after₂ (hdate 40 60) (plain_sampleMoment 60) (valid_sampleEntry 3)
    (hroom 60 (by decide) free₂)
  obtain ⟨d₄, h₄⟩ := h₃.append hb after₃ (hdate 60 61) (plain_sampleMoment 61) (valid_sampleEntry 4)
    (hroom 61 (by decide) free₃)
  obtain ⟨l, hl, hreplay⟩ := h₄.replay_in_order_iff hb
  obtain rfl := (hl _).1 after₄
  obtain ⟨r, hrun, hperm, -, hiff⟩ := hreplay 61
  have hnodup : (Ledger.mk (some (record 4 61))
      [(segment 1, record 2 40), (segment 0, record 3 60)]).entries.Nodup := by
    decide +kernel
  have hnumbered : ¬ (Ledger.mk (some (record 4 61))
      [(segment 1, record 2 40), (segment 0, record 3 60)]).Numbered := by
    decide +kernel
  exact ⟨_, _, d₄, _, h₄, after₄, hnodup, hnumbered, r, hrun, hperm, fun h =>
    hnumbered ((hiff hnodup).1 h)⟩

end Reachability.Log
