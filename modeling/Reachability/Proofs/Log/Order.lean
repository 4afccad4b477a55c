import Reachability.Proofs.Log.Ledger

set_option autoImplicit false

/-! # The order of segments

Segments are read in the order of their names, and the name of a segment is the first free one of
its day. So they are read in the order in which they were set aside if the numbers of each day
ascend (`Ledger.Dated.ascending_iff`). A rotation keeps to that unless it takes a number that was
freed below that of a segment which is still there (`Ledger.numbered_setAside_iff`). As long as no
segment is removed, no number of a day becomes free again (`Ledger.Orderly`). -/

namespace Reachability.Log

open Disk (Place)
open Disk.Program (Ends)
open Segment (bytesOf)

/-! ## Segments by day -/

/-- The segments have names of their own, none is from the future, and their days do not go back. -/
structure Ledger.Dated (log : Log) (today : CivilDate) (l : Ledger) : Prop where
  proper : ∀ e ∈ l.closed, log.Proper e.1
  past : ∀ e ∈ l.closed, e.1.date.upTo today
  days : l.closed.Pairwise fun a b => a.1.date.upTo b.1.date
  distinct : (l.closed.map Prod.fst).Nodup

/-- Of two segments of one day, the one that was set aside later has the greater number. -/
def Ledger.Numbered (l : Ledger) : Prop :=
  l.closed.Pairwise fun a b => a.1.date = b.1.date → a.1.number < b.1.number

instance (l : Ledger) : Decidable l.Numbered := inferInstanceAs (Decidable (List.Pairwise _ _))

namespace Ledger

variable {log : Log} {today : CivilDate} {moment : Moment} {l l' : Ledger} {es : List Entry}

theorem dated_empty (log : Log) (today : CivilDate) : empty.Dated log today where
  proper := nofun
  past := nofun
  days := .nil
  distinct := .nil

theorem Dated.mono (h : l.Dated log today) {today' : CivilDate} (hd : today.upTo today') :
    l.Dated log today' where
  proper := h.proper
  past e he := CivilDate.upTo_trans (h.past e he) hd
  days := h.days
  distinct := h.distinct

/-- With the numbers of each day the names ascend. -/
theorem Dated.ascending_iff (h : l.Dated log today) : l.closed.Ascending ↔ l.Numbered := by
  have hdistinct : l.closed.Pairwise fun a b => a.1 ≠ b.1 := List.pairwise_map.1 h.distinct
  constructor
  · intro hasc
    refine (hasc.and hdistinct).imp_of_mem fun {a b} ha hb hab hdate => ?_
    obtain ⟨hle, hne⟩ := hab
    rcases SegmentFile.le_iff.1 hle with hbefore | ⟨-, hnumber | ⟨hnumber, -⟩⟩
    · rw [hdate, CivilDate.before_irrefl] at hbefore
      cases hbefore
    · exact hnumber
    -- Two segments with one date and one number have one name, so they are the same.
    · refine absurd ?_ hne
      rw [(h.proper a ha).segment, (h.proper b hb).segment, hdate, hnumber]
  · intro hnumbered
    refine (hnumbered.and h.days).imp fun {a b} hab => ?_
    rw [SegmentFile.le_iff]
    rcases CivilDate.before_or_eq_of_upTo hab.2 with hbefore | hdate
    · exact .inl hbefore
    · exact .inr ⟨hdate, .inl (hab.1 hdate)⟩

/-- Setting the active file aside keeps the days in order, and so does removing segments. -/
theorem Dated.setAside (h : l.Dated log moment.today) (hplain : moment.today.Plain) {n : Nat}
    (hn : n < Text.halfWordBound) (hfree : log.FirstFree (l.closed.map Prod.fst) moment.today n)
    (r : Record) : (l.setAside log moment n r).Dated log moment.today := by
  -- What is left is a part of the old segments and the new one.
  have hsub : (l.setAside log moment n r).closed.Sublist
      (l.closed ++ [(log.family.segment moment.today n, r)]) := List.filter_sublist
  have hmem : ∀ e ∈ (l.setAside log moment n r).closed,
      e ∈ l.closed ∨ e = (log.family.segment moment.today n, r) := fun e he => by
    simpa using hsub.subset he
  refine ⟨?_, ?_, ?_, ?_⟩
  · intro e he
    rcases hmem e he with he | rfl
    · exact h.proper e he
    · exact proper_segment log hplain hn
  · intro e he
    rcases hmem e he with he | rfl
    · exact h.past e he
    · exact CivilDate.upTo_refl _
  · refine List.Pairwise.sublist hsub (List.pairwise_append.2
      ⟨h.days, List.pairwise_singleton .., fun a ha b hb => ?_⟩)
    rw [List.mem_singleton.1 hb]
    exact h.past a ha
  · refine List.Pairwise.sublist (hsub.map Prod.fst) ?_
    rw [List.map_append]
    refine List.nodup_append.2 ⟨h.distinct, List.pairwise_singleton .., fun a ha b hb => ?_⟩
    rw [List.mem_singleton.1 hb]
    rintro rfl
    exact hfree.free ha

/-- A rotation keeps the numbers ascending unless it takes one below that of a segment of the day
    which is still there. -/
theorem numbered_setAside_iff (h : l.Numbered) {n : Nat} {r : Record} :
    (l.setAside log moment n r).Numbered ↔ (log.keeps moment.seconds r.kept = true →
      ∀ e ∈ l.closed, log.keeps moment.seconds e.2.kept = true → e.1.date = moment.today →
        e.1.number < n) := by
  have hold : (l.closed.filter fun e => log.keeps moment.seconds e.2.kept).Pairwise
      fun a b => a.1.date = b.1.date → a.1.number < b.1.number :=
    List.Pairwise.sublist List.filter_sublist h
  rw [Numbered, setAside, List.filter_append, List.pairwise_append]
  constructor
  · rintro ⟨-, -, hlast⟩ hr e he hkeep hdate
    refine hlast e (List.mem_filter.2 ⟨he, hkeep⟩) (log.family.segment moment.today n, r) ?_ hdate
    exact List.mem_filter.2 ⟨List.mem_singleton.2 rfl, hr⟩
  · intro hlast
    refine ⟨hold, List.Pairwise.sublist List.filter_sublist (List.pairwise_singleton ..), ?_⟩
    intro a ha b hb hdate
    obtain ⟨hb, hr⟩ := List.mem_filter.1 hb
    obtain ⟨ha, hkeep⟩ := List.mem_filter.1 ha
    obtain rfl := List.mem_singleton.1 hb
    exact hlast hr a ha hkeep hdate

/-! ## Segments that are kept for ever -/

/-- The numbers of each day ascend, and none is left out. -/
structure Orderly (log : Log) (today : CivilDate) (l : Ledger) : Prop extends l.Dated log today where
  numbered : l.Numbered
  filled : ∀ e ∈ l.closed, ∀ i < e.1.number, log.family.segment e.1.date i ∈ l.closed.map Prod.fst

theorem orderly_empty (log : Log) (today : CivilDate) : empty.Orderly log today where
  toDated := dated_empty log today
  numbered := .nil
  filled := nofun

theorem Orderly.ascending (h : l.Orderly log today) : l.closed.Ascending :=
  h.toDated.ascending_iff.2 h.numbered

theorem Orderly.mono (h : l.Orderly log today) {today' : CivilDate} (hd : today.upTo today') :
    l.Orderly log today' where
  toDated := h.toDated.mono hd
  numbered := h.numbered
  filled := h.filled

/-- The order is one of the segments only. -/
theorem Orderly.of_closed (h : l.Orderly log today) (hclosed : l'.closed = l.closed) :
    l'.Orderly log today := by
  obtain ⟨current, closed⟩ := l'
  subst hclosed
  exact ⟨⟨h.proper, h.past, h.days, h.distinct⟩, h.numbered, h.filled⟩

/-- A segment of the day that is there has a number below the first free one. -/
theorem Orderly.number_lt (h : l.Orderly log today) {n : Nat}
    (hfree : log.FirstFree (l.closed.map Prod.fst) today n) {e : SegmentFile × Record}
    (he : e ∈ l.closed) (hdate : e.1.date = today) : e.1.number < n := by
  rcases Nat.lt_trichotomy e.1.number n with hlt | heq | hgt
  · exact hlt
  · refine absurd ?_ hfree.free
    rw [← heq, ← hdate, ← (h.proper e he).segment]
    exact List.mem_map_of_mem he
  -- No number below that of a segment is left out, so the free one cannot be one of them.
  · refine absurd ?_ hfree.free
    have hmem := h.filled e he n hgt
    rwa [hdate] at hmem

theorem setAside_of_zero (hzero : log.retention = .zero) (l : Ledger) (moment : Moment) (n : Nat)
    (r : Record) :
    l.setAside log moment n r = ⟨none, l.closed ++ [(log.family.segment moment.today n, r)]⟩ := by
  have hkeeps : ∀ k, log.keeps moment.seconds k = true := fun k => by simp [keeps, hzero]
  rw [setAside, List.filter_eq_self.2 fun e _ => hkeeps e.2.kept]

theorem entries_of_current {r : Record} (hr : l.current = some r) :
    l.entries = l.closed.entries ++ r.entries := by
  rw [entries, currentEntries, hr]
  rfl

/-- Setting the active file aside keeps the order and loses no entry. -/
theorem Orderly.rotated (hzero : log.retention = .zero) (h : l.Orderly log moment.today)
    (hplain : moment.today.Plain) (hr : l.Rotated log moment l') :
    l'.Orderly log moment.today ∧ l'.entries = l.entries := by
  cases hr with
  | kept => exact ⟨h, rfl⟩
  | @aside r n hr hfull hn hfree =>
      have hdated := h.toDated.setAside hplain hn hfree r
      have hnumbered : (l.setAside log moment n r).Numbered :=
        (numbered_setAside_iff h.numbered).2 fun _ e he _ hdate => h.number_lt hfree he hdate
      have hclosed := setAside_of_zero hzero l moment n r
      refine ⟨⟨hdated, hnumbered, ?_⟩, ?_⟩
      · intro e he i hi
        rw [hclosed, List.map_append]
        refine List.mem_append_left _ ?_
        rw [hclosed] at he
        rcases List.mem_append.1 he with he | he
        · exact h.filled e he i hi
        · obtain rfl := List.mem_singleton.1 he
          exact hfree.taken i hi
      · rw [hclosed, entries_of_current hr, entries, Closed.entries_append, List.append_assoc]
        simp [Closed.entries, currentEntries]

/-- Whatever becomes of an append, the order is kept, and no entry is lost or added but those that
    were written. -/
theorem Orderly.settled (hzero : log.retention = .zero) (h : l.Orderly log today)
    (hd : today.upTo moment.today) (hplain : moment.today.Plain)
    (hs : l.Settled log moment es l') :
    l'.Orderly log moment.today ∧ l'.entries = l.entries ++ es := by
  have h := h.mono hd
  cases hs with
  | refused => exact ⟨h, (List.append_nil _).symm⟩
  | rotated hr =>
      rw [List.append_nil]
      exact h.rotated hzero hplain hr
  | touched hr now =>
      obtain ⟨h', hentries⟩ := h.rotated hzero hplain hr
      exact ⟨h'.of_closed rfl, by rw [entries_add, hentries]⟩
  | written hr e =>
      obtain ⟨h', hentries⟩ := h.rotated hzero hplain hr
      exact ⟨h'.of_closed rfl, by rw [entries_add, hentries]⟩

end Ledger

/-- An append that is answered has added its entry, and one that fails has added none. -/
theorem Ledger.Orderly.ends_append {log : Log} {today : CivilDate} {moment : Moment} {l : Ledger}
    {d₀ d d' : Disk} {here : Place} {base : String} (ho : l.Orderly log today)
    (hb : log.Begins d₀ here base) (h : log.Holds d₀ here base d l.shelf)
    (hzero : log.retention = .zero) (hdate : today.upTo moment.today)
    (hplain : moment.today.Plain) {e : Entry} {r : Except StoreError Unit}
    (hends : Ends IsWriting moment.seconds (log.append moment e).run d r d') :
    ∃ l' : Ledger, log.Holds d₀ here base d' l'.shelf ∧ l'.Orderly log moment.today ∧
      (r = .ok () ∧ l'.entries = l.entries ++ [e] ∨
        ∃ err, r = .error err ∧ l'.entries = l.entries) := by
  obtain ⟨es, l', hd', hsettled, hr⟩ := h.ends_append hb hplain hends
  obtain ⟨ho', hentries⟩ := ho.settled hzero hdate hplain hsettled
  refine ⟨l', hd', ho', ?_⟩
  rcases hr with ⟨rfl, rfl⟩ | ⟨err, rfl, rfl⟩
  · exact .inl ⟨rfl, hentries⟩
  · exact .inr ⟨err, rfl, by rw [hentries, List.append_nil]⟩

end Reachability.Log
