import Reachability.Proofs.Log.Shelf

set_option autoImplicit false

/-! # Rotation

What setting the active file aside makes of a shelf: it gets the first free number of the day, and
then every segment is removed that has been kept long enough (`Rotated`). A rotation that is refused
changes nothing, and without a retention time no segment is removed. -/

namespace Reachability.Log

open Disk (Place)
open Disk.Program (Only Stops)

/-! ## The first free number -/

/-- The first number of a day that no segment has. -/
structure FirstFree (log : Log) (taken : List SegmentFile) (date : CivilDate) (n : Nat) : Prop where
  free : log.family.segment date n ∉ taken
  taken : ∀ i < n, log.family.segment date i ∈ taken

theorem FirstFree.unique {log : Log} {taken : List SegmentFile} {date : CivilDate} {m n : Nat}
    (hm : log.FirstFree taken date m) (hn : log.FirstFree taken date n) : m = n := by
  rcases Nat.lt_trichotomy m n with hlt | heq | hgt
  · exact absurd (hn.taken m hlt) hm.free
  · exact heq
  · exact absurd (hm.taken n hgt) hn.free

/-- There is a number for one more segment of a day, and a file can have the name with it. -/
def HasRoom (log : Log) (d₀ : Disk) (here : Place) (taken : List SegmentFile) (date : CivilDate) :
    Prop :=
  ∃ n, n < Text.halfWordBound ∧ log.FirstFree taken date n ∧
    log.Fits d₀ here (log.family.segment date n)

section Holds

variable {log : Log} {d₀ d : Disk} {here : Place} {base : String} {s : Shelf} {k : Kept}
  (hb : log.Begins d₀ here base) (h : log.Holds d₀ here base d s)

include hb h

/-- A name is free for a segment unless that segment is there. -/
theorem Holds.isThere_segment {t : SegmentFile} (ht : log.Proper t) :
    (d.stat (log.pathOf t)).isOk = true ↔ t ∈ s.segments.map Prod.fst := by
  constructor
  · intro hok
    refine Classical.byContradiction fun hfree => ?_
    rcases hb.fits_or_error ht with hfit | herror
    · rw [(hfit d h.outside).stat_none (h.get?_segment hb ht hfree)] at hok
      cases hok
    · obtain ⟨fault, hfault⟩ := herror d h.outside
      rw [Disk.stat_of_resolve_error hfault] at hok
      cases hok
  · intro hmem
    obtain ⟨e, he, rfl⟩ := List.mem_map.1 hmem
    rw [(h.reaches_segment he).stat_file (h.segment e he)]
    rfl

theorem Holds.run_freeNumber (now : Int) {date : CivilDate} (hd : date.Plain) {n tries : Nat}
    (hn : n + tries = Text.halfWordBound)
    (htaken : ∀ i < n, log.family.segment date i ∈ s.segments.map Prod.fst) :
    ((∀ i < Text.halfWordBound, log.family.segment date i ∈ s.segments.map Prod.fst) ∧
      ∃ e, (log.freeNumber date.text n tries).run.run now d = (.error e, d)) ∨
      ∃ m, m < Text.halfWordBound ∧ log.FirstFree (s.segments.map Prod.fst) date m ∧
        (log.freeNumber date.text n tries).run.run now d = (.ok m, d) := by
  -- On the numbers that are left to be tried; all before `n` are taken.
  induction tries generalizing n with
  | zero => exact .inl ⟨hn ▸ htaken, _, rfl⟩
  | succ tries ih =>
      have hproper : log.Proper (log.family.segment date n) := proper_segment log hd (by omega)
      have hthere := h.isThere_segment hb hproper
      have hrun := Action.run_isThere now d (log.segmentPath date.text n)
      rw [segmentPath_eq] at hrun
      rw [freeNumber, segmentPath_eq]
      by_cases hmem : log.family.segment date n ∈ s.segments.map Prod.fst
      · rw [hthere.2 hmem] at hrun
        rw [Action.run_bind_ok hrun]
        refine ih (by omega) fun i hi => ?_
        by_cases hin : i = n
        · rw [hin]
          exact hmem
        · exact htaken i (by omega)
      · have hfalse : (d.stat (log.pathOf (log.family.segment date n))).isOk = false := by
          simpa using fun hok => hmem (hthere.1 hok)
        rw [hfalse] at hrun
        rw [Action.run_bind_ok hrun]
        exact .inr ⟨n, by omega, ⟨hmem, htaken⟩, rfl⟩

/-! ## Removing old segments -/

/-- Whether a file is not old enough to be removed. -/
def keeps (log : Log) (now : Int) (k : Kept) : Bool :=
  log.retention == .zero || !log.isExpired now k.modified

omit hb in
/-- A name has one file. -/
theorem Holds.eq_of_fst_eq {x e : SegmentFile × Kept} (hx : x ∈ s.segments) (he : e ∈ s.segments)
    (hxe : x.1 = e.1) : x = e := by
  have hget := h.segment x hx
  rw [hxe, h.segment e he] at hget
  obtain ⟨hc, hm⟩ := Disk.Node.file.inj (Option.some.inj hget)
  obtain ⟨xs, ⟨xc, xm⟩⟩ := x
  obtain ⟨es, ⟨ec, em⟩⟩ := e
  simp_all

theorem Holds.run_removeExpired (seconds now : Int) {l : List (SegmentFile × Kept)}
    (hl : ∀ e ∈ l, e ∈ s.segments) (hnodup : (l.map Prod.fst).Nodup) :
    ∃ d', (log.removeExpired now (l.map fun e => log.pathOf e.1)).run.run seconds d = (.ok (), d') ∧
      log.Holds d₀ here base d' { s with segments := s.segments.filter fun e =>
        !(decide (e.1 ∈ l.map Prod.fst) && log.isExpired now e.2.modified) } := by
  -- On the segments that are still to be looked at; the old ones go from the shelf one by one.
  induction l generalizing s d with
  | nil =>
      refine ⟨d, rfl, ?_⟩
      have hall : (s.segments.filter fun e => !(decide (e.1 ∈ ([] : List (SegmentFile × Kept)).map
          Prod.fst) && log.isExpired now e.2.modified)) = s.segments :=
        List.filter_eq_self.2 fun e _ => by simp
      rw [hall]
      exact h
  | cons e l ih =>
      have he : e ∈ s.segments := hl e (List.mem_cons_self ..)
      obtain ⟨hnew, hnodup⟩ := List.nodup_cons.1 hnodup
      have hother : ∀ x : SegmentFile × Kept, x.1 ≠ e.1 →
          (x.1 ∈ (e :: l).map Prod.fst ↔ x.1 ∈ l.map Prod.fst) := by
        intro x hxe
        rw [List.map_cons, List.mem_cons]
        exact or_iff_right hxe
      have hstat : Disk.perform seconds d (.stat (log.pathOf e.1))
          = (.ok ⟨e.2.content.length, e.2.modified⟩, d) :=
        congrArg (·, d) ((h.reaches_segment he).stat_file (h.segment e he))
      rw [List.map_cons, removeExpired, Action.run_bind_ok (Action.run_access_ok hstat)]
      by_cases hold : log.isExpired now e.2.modified = true
      · obtain ⟨d₁, hremove, h₁⟩ := h.remove hb he
        have hdrop : (discard (Action.accessIfThere (.remove (log.pathOf e.1)))
            : Action Unit).run.run seconds d = (.ok (), d₁) :=
          Action.run_discard_ok (Action.run_accessIfThere_ok
            (congrArg (Disk.changed d) hremove))
        obtain ⟨d₂, hrun, h₂⟩ := ih h₁ (fun x hx => by
          refine List.mem_filter.2 ⟨hl x (List.mem_cons_of_mem _ hx), ?_⟩
          simpa using fun hxe : x.1 = e.1 => hnew (hxe ▸ List.mem_map_of_mem hx)) hnodup
        refine ⟨d₂, ?_, ?_⟩
        · simp only [if_pos hold]
          rw [Action.run_bind_ok hdrop]
          exact hrun
        · simp only [List.filter_filter] at h₂
          refine (congrArg (fun l => log.Holds d₀ here base d₂ ⟨s.active, l⟩)
            (List.filter_congr fun x hx => ?_)).mp h₂
          by_cases hxe : x.1 = e.1
          · rw [h.eq_of_fst_eq hx he hxe]
            simp [hold]
          · have hmem := hother x hxe
            simp only [hmem]
            simp [hxe]
      · obtain ⟨d₂, hrun, h₂⟩ := ih h (fun x hx => hl x (List.mem_cons_of_mem _ hx)) hnodup
        refine ⟨d₂, ?_, ?_⟩
        · simp only [if_neg hold]
          exact hrun
        · refine (congrArg (fun l => log.Holds d₀ here base d₂ ⟨s.active, l⟩)
            (List.filter_congr fun x hx => ?_)).mp h₂
          by_cases hxe : x.1 = e.1
          · rw [h.eq_of_fst_eq hx he hxe]
            simp [hold]
          · have hmem := hother x hxe
            simp only [hmem]

theorem Holds.run_prune (seconds now : Int) :
    ∃ d', (log.prune now).run.run seconds d = (.ok (), d') ∧
      log.Holds d₀ here base d'
        { s with segments := s.segments.filter fun e => log.keeps now e.2 } := by
  by_cases hzero : log.retention = .zero
  · refine ⟨d, ?_, ?_⟩
    · rw [prune, if_neg (fun hne => hne hzero)]
      rfl
    · have hall : (s.segments.filter fun e => log.keeps now e.2) = s.segments :=
        List.filter_eq_self.2 fun e _ => by simp [keeps, hzero]
      rw [hall]
      exact h
  · have hpaths : ((s.segments.map Prod.fst).mergeSort SegmentFile.le).map log.pathOf
        = s.inOrder.map fun e => log.pathOf e.1 := by
      rw [← s.map_fst_inOrder, List.map_map]
      rfl
    obtain ⟨d', hrun, h'⟩ := h.run_removeExpired hb seconds now (l := s.inOrder)
      (fun e he => s.inOrder_perm.mem_iff.1 he)
      ((s.inOrder_perm.map Prod.fst).nodup_iff.2 h.nodup)
    refine ⟨d', ?_, ?_⟩
    · rw [prune, if_pos hzero, Action.run_bind_ok (h.run_segments hb seconds), hpaths]
      exact hrun
    · refine (congrArg (fun l => log.Holds d₀ here base d' ⟨s.active, l⟩)
        (List.filter_congr fun x hx => ?_)).mp h'
      have hmem : x.1 ∈ s.inOrder.map Prod.fst :=
        List.mem_map_of_mem (s.inOrder_perm.mem_iff.2 hx)
      have hkeep : (log.retention == .zero) = false := by simpa using hzero
      simp [keeps, hmem, hkeep]

/-! ## Setting the active file aside -/

omit hb h in
/-- The shelf after its active file has been set aside under a number of the day and old segments
    have been removed. -/
def setAside (log : Log) (s : Shelf) (moment : Moment) (n : Nat) (k : Kept) : Shelf :=
  ⟨none, (s.segments ++ [(log.family.segment moment.today n, k)]).filter fun e =>
    log.keeps moment.seconds e.2⟩

omit hb h in
/-- A rotation of an active file that is there. -/
def moveAside (log : Log) (moment : Moment) : Action (Option (List Char)) := do
  let number ← log.freeNumber moment.today.text 0 numberLimit
  Action.access (.rename log.path (log.segmentPath moment.today.text number))
  log.prune moment.seconds
  pure (some (log.segmentPath moment.today.text number))

theorem Holds.run_isThere (now : Int) (hk : s.active = some k) :
    (Action.isThere log.path).run.run now d = (.ok true, d) := by
  rw [Action.run_isThere, (h.reaches hb).stat_file (h.get?_active hk)]
  rfl

/-- The active file is set aside under the first free number of the day, unless there is no room;
    then nothing changes. -/
theorem Holds.run_moveAside {moment : Moment} (hplain : moment.today.Plain)
    (hk : s.active = some k) :
    (¬ log.HasRoom d₀ here (s.segments.map Prod.fst) moment.today ∧
      ∃ e, (log.moveAside moment).run.run moment.seconds d = (.error e, d)) ∨
      ∃ n d', n < Text.halfWordBound ∧
        log.FirstFree (s.segments.map Prod.fst) moment.today n ∧
        (log.moveAside moment).run.run moment.seconds d
          = (.ok (some (log.pathOf (log.family.segment moment.today n))), d') ∧
        log.Holds d₀ here base d' (log.setAside s moment n k) := by
  rcases h.run_freeNumber hb moment.seconds hplain (Nat.zero_add numberLimit)
    (fun i hi => absurd hi (Nat.not_lt_zero i))
    with ⟨hall, e, hnumber⟩ | ⟨n, hn, hfree, hnumber⟩
  · refine .inl ⟨?_, e, by rw [moveAside, Action.run_bind_error hnumber]⟩
    rintro ⟨n, hn, hfree, -⟩
    exact hfree.free (hall n hn)
  -- A name that is too long is free as well, and then it is the renaming that is refused.
  rcases h.perform_rename hb moment.seconds (proper_segment log hplain hn) hfree.free hk
    with ⟨-, d₁, hmove, h₁⟩ | ⟨hlong, fault, hmove⟩
  · right
    obtain ⟨d₂, hprune, h₂⟩ := h₁.run_prune hb moment.seconds moment.seconds
    refine ⟨n, d₂, hn, hfree, ?_, h₂⟩
    rw [moveAside, Action.run_bind_ok hnumber, segmentPath_eq,
      Action.run_bind_ok (Action.run_access_ok hmove), Action.run_bind_ok hprune]
    rfl
  · refine .inl ⟨?_, .log (.disk fault), ?_⟩
    · rintro ⟨m, -, hm, hfit⟩
      exact hlong (hm.unique hfree ▸ hfit)
    · rw [moveAside, Action.run_bind_ok hnumber, segmentPath_eq,
        Action.run_bind_error (Action.run_access_error hmove)]

theorem Holds.run_rotate {moment : Moment} (hk : s.active = some k) :
    (log.rotate moment).run.run moment.seconds d
      = (log.moveAside moment).run.run moment.seconds d := by
  rw [rotate, Action.run_bind_ok (h.run_isThere hb moment.seconds hk)]
  rfl

/-- Without an active file there is nothing to be set aside. -/
theorem Holds.run_rotate_none {moment : Moment} (hk : s.active = none) :
    (log.rotate moment).run.run moment.seconds d = (.ok none, d) := by
  have hthere : (Action.isThere log.path).run.run moment.seconds d = (.ok false, d) := by
    rw [Action.run_isThere, (h.reaches hb).stat_none (h.get?_none hk)]
    rfl
  rw [rotate, Action.run_bind_ok hthere]
  rfl

omit hb h in
/-- What the check before an append makes of a shelf. -/
inductive Rotated (log : Log) (moment : Moment) (s : Shelf) : Shelf → Prop where
  | kept (h : ∀ k, s.active = some k → k.content.length < log.maxBytes) : Rotated log moment s s
  | aside {k : Kept} {n : Nat} (hk : s.active = some k) (hfull : log.maxBytes ≤ k.content.length)
      (hn : n < Text.halfWordBound)
      (hfree : log.FirstFree (s.segments.map Prod.fst) moment.today n) :
      Rotated log moment s (log.setAside s moment n k)

theorem Holds.run_rotateIfFull {moment : Moment} (hplain : moment.today.Plain) :
    (¬ log.HasRoom d₀ here (s.segments.map Prod.fst) moment.today ∧
      ∃ e, (log.rotateIfFull moment).run.run moment.seconds d = (.error e, d)) ∨
      ∃ d' s', (log.rotateIfFull moment).run.run moment.seconds d = (.ok (), d') ∧
        log.Holds d₀ here base d' s' ∧ log.Rotated moment s s' := by
  cases hk : s.active with
  | none =>
      right
      have hstat := Action.run_accessIfThere_notFound (h.perform_stat_none hb moment.seconds hk)
      refine ⟨d, s, ?_, h, .kept fun k hk' => ?_⟩
      · rw [rotateIfFull, Action.run_bind_ok hstat]
        rfl
      · rw [hk] at hk'
        cases hk'
  | some k =>
      have hstat := Action.run_accessIfThere_ok (h.perform_stat hb moment.seconds hk)
      rw [rotateIfFull, Action.run_bind_ok hstat]
      by_cases hfull : log.maxBytes ≤ k.content.length
      · simp only [if_pos hfull]
        rcases h.run_moveAside hb hplain hk with ⟨hroom, e, hrun⟩ | ⟨n, d', hn, hfree, hrun, h'⟩
        · rw [← h.run_rotate hb hk] at hrun
          exact .inl ⟨hroom, e, Action.run_discard_error hrun⟩
        · rw [← h.run_rotate hb hk] at hrun
          exact .inr ⟨d', _, Action.run_discard_ok hrun, h', .aside hk hfull hn hfree⟩
      · simp only [if_neg hfull]
        refine .inr ⟨d, s, rfl, h, .kept fun k' hk' => ?_⟩
        rw [hk] at hk'
        rw [← Option.some.inj hk']
        omega

end Holds

/-! ## The accesses of a rotation -/

/-- Whether an access is one of those that set files aside and remove them. -/
def IsShelving : Disk.Request → Prop
  | .stat _ => True
  | .list _ => True
  | .rename .. => True
  | .remove _ => True
  | _ => False

theorem IsShelving.isSilent {r : Disk.Request} (h : IsShelving r) : r.IsSilent := by
  cases r <;> trivial

section Only

variable (log : Log)

theorem only_freeNumber {P : Disk.Request → Prop} {date : List Char} {n tries : Nat}
    (hstat : ∀ i < n + tries, P (.stat (log.segmentPath date i))) :
    (log.freeNumber date n tries).run.Only P := by
  induction tries generalizing n with
  | zero => trivial
  | succ tries ih =>
      refine Action.only_bind (Action.only_isThere (hstat n (by omega))) fun there => ?_
      cases there with
      | true => exact ih fun i hi => hstat i (by omega)
      | false => trivial

theorem only_removeExpired (now : Int) (paths : List (List Char)) :
    (log.removeExpired now paths).run.Only IsShelving := by
  induction paths with
  | nil => trivial
  | cons path paths ih =>
      refine Action.only_bind (Action.only_access trivial) fun stat => ?_
      by_cases hold : log.isExpired now stat.modified = true
      · simp only [if_pos hold]
        exact Action.only_bind (Action.only_discard (Action.only_accessIfThere trivial)) fun _ => ih
      · simp only [if_neg hold]
        exact ih

theorem only_prune (now : Int) : (log.prune now).run.Only IsShelving := by
  unfold prune
  split
  · refine Action.only_bind ?_ fun paths => only_removeExpired log now paths
    refine Action.only_bind (Action.only_accessIfThere trivial) fun names => ?_
    cases names <;> trivial
  · trivial

theorem only_rotateIfFull (moment : Moment) : (log.rotateIfFull moment).run.Only IsShelving := by
  refine Action.only_bind (Action.only_accessIfThere trivial) fun stat => ?_
  cases stat with
  | none => trivial
  | some stat =>
      by_cases hfull : log.maxBytes ≤ stat.size
      · simp only [if_pos hfull]
        refine Action.only_discard (Action.only_bind (Action.only_isThere trivial) fun there => ?_)
        cases there with
        | false => trivial
        | true =>
            refine Action.only_bind (only_freeNumber log fun _ _ => trivial) fun n => ?_
            refine Action.only_bind (Action.only_access trivial) fun _ => ?_
            exact Action.only_bind (only_prune log _) fun _ => trivial
      · simp only [if_neg hfull]
        trivial

end Only

/-! ## A rotation that is stopped -/

section Stops

variable {log : Log} {d₀ d d' : Disk} {here : Place} {base : String} {s : Shelf}
  {moment : Moment} {bs : List UInt8} (hb : log.Begins d₀ here base)
  (h : log.Holds d₀ here base d s)

include hb h

theorem Holds.stops_moveAside (hzero : log.retention = .zero) (hplain : moment.today.Plain)
    {k : Kept} (hk : s.active = some k)
    (hstop : Stops moment.seconds (log.moveAside moment).run d bs d') :
    d' = d ∨ ∃ n, n < Text.halfWordBound ∧
      log.FirstFree (s.segments.map Prod.fst) moment.today n ∧
      log.Holds d₀ here base d' (log.setAside s moment n k) := by
  rw [moveAside] at hstop
  rcases Action.stops_reading_bind hstop (only_freeNumber log fun _ _ => trivial)
    with ⟨-, hd⟩ | ⟨m, hrun, hstop⟩
  · exact .inl hd
  rcases h.run_freeNumber hb moment.seconds hplain (Nat.zero_add numberLimit)
    (fun i hi => absurd hi (Nat.not_lt_zero i)) with ⟨-, e, hnumber⟩ | ⟨n, hn, hfree, hnumber⟩
  · rw [hnumber] at hrun
    cases hrun
  rw [hnumber] at hrun
  obtain rfl : n = m := Except.ok.inj (Prod.mk.inj hrun).1
  rw [segmentPath_eq] at hstop
  rcases h.perform_rename hb moment.seconds (proper_segment log hplain hn) hfree.free hk
    with ⟨-, d₁, hmove, h₁⟩ | ⟨-, fault, hmove⟩
  · rcases Action.stops_access_bind hmove hstop with hpart | ⟨bs', -, hstop⟩
    · cases hpart
      exact .inl rfl
    right
    refine ⟨n, hn, hfree, ?_⟩
    have hstop := Action.stops_bind_done hstop fun _ => ⟨_, rfl⟩
    rw [prune, if_neg (fun hne => hne hzero)] at hstop
    have hkeeps : ∀ k, log.keeps moment.seconds k = true := fun k => by simp [keeps, hzero]
    rw [(Disk.Program.stops_done hstop).2, setAside, List.filter_eq_self.2 fun e _ => hkeeps e.2]
    exact h₁
  · left
    rcases Action.stops_access_error hmove hstop with hpart | hd
    · cases hpart
      rfl
    · exact hd

/-- When segments are kept for ever, a rotation has been made or not wherever it is stopped. -/
theorem Holds.stops_rotateIfFull (hzero : log.retention = .zero) (hplain : moment.today.Plain)
    (hstop : Stops moment.seconds (log.rotateIfFull moment).run d bs d') :
    bs = [] ∧ ∃ s', log.Holds d₀ here base d' s' ∧ (s' = s ∨ log.Rotated moment s s') := by
  refine ⟨((only_rotateIfFull log moment).mono fun r hr => hr.isSilent).stops_of_isSilent hstop, ?_⟩
  have hsame : ∃ s', log.Holds d₀ here base d s' ∧ (s' = s ∨ log.Rotated moment s s') :=
    ⟨s, h, .inl rfl⟩
  rw [rotateIfFull] at hstop
  rcases Action.stops_reading_bind hstop (Action.only_accessIfThere trivial)
    with ⟨-, hd⟩ | ⟨stat, hrun, hstop⟩
  · exact hd ▸ hsame
  cases hk : s.active with
  | none =>
      rw [Action.run_accessIfThere_notFound (h.perform_stat_none hb _ hk)] at hrun
      obtain rfl : none = stat := Except.ok.inj (Prod.mk.inj hrun).1
      exact (Disk.Program.stops_done hstop).2 ▸ hsame
  | some k =>
      rw [Action.run_accessIfThere_ok (h.perform_stat hb _ hk)] at hrun
      obtain rfl := Except.ok.inj (Prod.mk.inj hrun).1
      by_cases hfull : log.maxBytes ≤ k.content.length
      · simp only [if_pos hfull] at hstop
        rw [Action.discard_eq] at hstop
        have hstop := Action.stops_bind_done hstop fun _ => ⟨_, rfl⟩
        rw [rotate] at hstop
        rcases Action.stops_reading_bind hstop (Action.only_isThere trivial)
          with ⟨-, hd⟩ | ⟨there, hrun, hstop⟩
        · exact hd ▸ hsame
        rw [h.run_isThere hb _ hk] at hrun
        obtain rfl : true = there := Except.ok.inj (Prod.mk.inj hrun).1
        -- Up to here the disk has only been read.
        rcases h.stops_moveAside hb hzero hplain hk hstop with hd | ⟨n, hn, hfree, h'⟩
        · exact hd ▸ hsame
        · exact ⟨_, h', .inr (.aside hk hfull hn hfree)⟩
      · simp only [if_neg hfull] at hstop
        exact (Disk.Program.stops_done hstop).2 ▸ hsame

end Stops

end Reachability.Log
