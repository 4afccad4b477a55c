import Reachability.Proofs.Log.Replay
import Reachability.Proofs.Log.Rotation

set_option autoImplicit false

/-! # Ledgers

A ledger is a shelf all of whose files hold whole lines: the entries of each segment, and those of
the active file. An append adds its entry to the ledger or leaves the entries as they are, however
its accesses fail (`Holds.ends_append`). If it is stopped, a part of one more line may be in the
active file (`Holds.stops_append`). -/

namespace Reachability.Log

open Disk (Place)
open Disk.Program (Ends Only Stops)
open Segment (bytesOf)

/-- The records of a log: that of the active file, and those of the segments in the order in which
    they were set aside. -/
structure Ledger where
  current : Option Record
  closed : Closed
  deriving DecidableEq

namespace Ledger

/-- The ledger of a log that has just begun. -/
def empty : Ledger := ⟨none, []⟩

/-- The files that hold a ledger. -/
def shelf (l : Ledger) : Shelf := ⟨l.current.map Record.kept, l.closed.shelve⟩

/-- The entries of the active file. -/
def currentEntries (l : Ledger) : List Entry := (l.current.map Record.entries).getD []

/-- All entries, in the order in which they were written. -/
def entries (l : Ledger) : List Entry := l.closed.entries ++ l.currentEntries

/-- The ledger after entries have been written to the active file. -/
def add (l : Ledger) (es : List Entry) (now : Int) : Ledger :=
  { l with current := some ⟨l.currentEntries ++ es, now⟩ }

@[simp] theorem currentEntries_add (l : Ledger) (es : List Entry) (now : Int) :
    (l.add es now).currentEntries = l.currentEntries ++ es := rfl

@[simp] theorem closed_add (l : Ledger) (es : List Entry) (now : Int) :
    (l.add es now).closed = l.closed := rfl

@[simp] theorem entries_add (l : Ledger) (es : List Entry) (now : Int) :
    (l.add es now).entries = l.entries ++ es := by
  simp [entries]

/-- The ledger after the active file has been set aside. -/
def setAside (l : Ledger) (log : Log) (moment : Moment) (n : Nat) (r : Record) : Ledger :=
  ⟨none, (l.closed ++ [(log.family.segment moment.today n, r)]).filter fun e =>
    log.keeps moment.seconds e.2.kept⟩

/-- What the check before an append makes of a ledger. -/
inductive Rotated (log : Log) (moment : Moment) (l : Ledger) : Ledger → Prop where
  | kept (h : ∀ r, l.current = some r → (bytesOf r.entries).length < log.maxBytes) :
      Rotated log moment l l
  | aside {r : Record} {n : Nat} (hr : l.current = some r)
      (hfull : log.maxBytes ≤ (bytesOf r.entries).length) (hn : n < Text.halfWordBound)
      (hfree : log.FirstFree (l.closed.map Prod.fst) moment.today n) :
      Rotated log moment l (l.setAside log moment n r)

theorem shelf_setAside (l : Ledger) (log : Log) (moment : Moment) (n : Nat) (r : Record) :
    (l.setAside log moment n r).shelf = log.setAside l.shelf moment n r.kept := by
  have hfilter : Closed.shelve ((l.closed ++ [(log.family.segment moment.today n, r)]).filter
      fun e => log.keeps moment.seconds e.2.kept)
        = (l.closed.shelve ++ [(log.family.segment moment.today n, r.kept)]).filter
          fun e => log.keeps moment.seconds e.2 := by
    rw [Closed.shelve, Closed.shelve, ← List.map_singleton (f := fun e : SegmentFile × Record =>
      (e.1, e.2.kept)) (a := (log.family.segment moment.today n, r)), ← List.map_append,
      List.filter_map]
    rfl
  rw [shelf, setAside, Log.setAside, hfilter]
  rfl

theorem current_of_shelf {l : Ledger} {k : Kept} (h : l.shelf.active = some k) :
    ∃ r, l.current = some r ∧ r.kept = k := Option.map_eq_some_iff.1 h

/-- The files of a ledger are set aside as its records are. -/
theorem rotated_of_shelf {log : Log} {moment : Moment} {l : Ledger} {s : Shelf}
    (h : log.Rotated moment l.shelf s) : ∃ l', s = l'.shelf ∧ l.Rotated log moment l' := by
  cases h with
  | kept h =>
      refine ⟨l, rfl, .kept fun r hr => h r.kept ?_⟩
      rw [shelf, hr]
      rfl
  | aside hk hfull hn hfree =>
      obtain ⟨r, hr, rfl⟩ := current_of_shelf hk
      refine ⟨_, (l.shelf_setAside log moment _ r).symm, .aside hr hfull hn ?_⟩
      rwa [shelf, Closed.map_fst_shelve] at hfree

end Ledger

/-! ## Appends that fail -/

/-- Whether an access is one of those that write a line. -/
def IsWriting : Disk.Request → Prop
  | .openAppend _ => True
  | .append .. => True
  | .flush _ => True
  | .sync _ => True
  | _ => False

theorem IsShelving.not_isWriting {r : Disk.Request} (h : IsShelving r) : ¬ IsWriting r := by
  cases r <;> first | exact id | exact fun _ => h

section Append

variable {log : Log} {d₀ d d' : Disk} {here : Place} {base : String} {s : Shelf} {k : Kept}
  {now : Int} (hb : log.Begins d₀ here base) (h : log.Holds d₀ here base d s)
  (hk : s.active = some k)

include hb h hk

/-- If a line cannot be written, a part of it may be in the file. -/
theorem Holds.ends_writeLine {line : List UInt8} {r : Except StoreError Unit}
    (hends : Ends IsWriting now (writeLine log.path line).run d r d') :
    r = .ok () ∧ log.Holds d₀ here base d'
        { s with active := some ⟨k.content ++ line, now⟩ } ∨
      ∃ e n t, r = .error e ∧ log.Holds d₀ here base d'
        { s with active := some ⟨k.content ++ line.take n, t⟩ } := by
  have hwhole : k.content ++ line = k.content ++ line.take line.length := by rw [List.take_length]
  obtain ⟨d₁, happend, h₁⟩ := h.append hb now hk line
  have hadd : (Action.access (.append log.path line)).run.run now d = (.ok (), d₁) :=
    Action.run_access_ok (congrArg (Disk.changed d) happend)
  -- Once the whole line is there, the file stays as it is.
  have hflush : ∀ {x : Except StoreError Unit} {d₂ : Disk},
      Ends IsWriting now (Action.access (.flush log.path)).run d₁ x d₂ → d₂ = d₁ := by
    intro x d₂ hx
    rcases Action.ends_access hx with hx | ⟨-, fault, bs, -, hpart⟩
    · exact (Prod.mk.inj hx).2.symm
    · exact (hpart.of_isReading trivial).2
  have hsync : ∀ {x : Except StoreError Unit} {d₂ : Disk},
      Ends IsWriting now (Action.access (.sync log.path)).run d₁ x d₂ → d₂ = d₁ := by
    intro x d₂ hx
    rcases Action.ends_access hx with hx | ⟨-, fault, bs, -, hpart⟩
    · rw [Action.run_access_ok (h₁.perform_sync hb now rfl)] at hx
      exact (Prod.mk.inj hx).2.symm
    · exact (hpart.of_isReading trivial).2
  rw [writeLine] at hends
  rcases Action.ends_bind hends with ⟨u, d₂, hfirst, hends⟩ | ⟨e, rfl, hfirst⟩
  · rcases Action.ends_access hfirst with hfirst | ⟨-, fault, bs, hfault, -⟩
    · rw [hadd] at hfirst
      obtain rfl : d₁ = d₂ := (Prod.mk.inj hfirst).2
      rcases Action.ends_bind hends with ⟨u', d₃, hsecond, hthird⟩ | ⟨e, rfl, hsecond⟩
      · rw [hflush hsecond] at hthird
        rw [hsync hthird]
        cases r with
        | ok v => exact .inl ⟨rfl, h₁⟩
        | error e => exact .inr ⟨e, line.length, now, rfl, hwhole ▸ h₁⟩
      · rw [hflush hsecond]
        exact .inr ⟨e, line.length, now, rfl, hwhole ▸ h₁⟩
    · cases hfault
  · right
    rcases Action.ends_access hfirst with hfirst | ⟨-, fault, bs, hfault, hpart⟩
    · rw [hadd] at hfirst
      cases hfirst
    · cases hpart with
      | nothing =>
          refine ⟨e, 0, k.modified, rfl, ?_⟩
          rw [List.take_zero, List.append_nil, ← hk]
          exact h
      | added n hpart =>
          obtain ⟨d₂, hpart', h₂⟩ := h.append hb now hk (line.take n)
          rw [hpart'] at hpart
          cases hpart
          exact ⟨e, n, now, rfl, h₂⟩

/-- If a line cannot be written, it is cut off again. -/
theorem Holds.ends_tryWrite {line : List UInt8} {r : Except StoreError Unit}
    (hends : Ends IsWriting now (tryCatch (writeLine log.path line) fun error => do
      discard ((Disk.Program.ask (.truncate log.path k.content.length)).bind fun a =>
        .done (.ok a) : Action _)
      throw error : Action Unit).run d r d') :
    r = .ok () ∧ log.Holds d₀ here base d'
        { s with active := some ⟨k.content ++ line, now⟩ } ∨
      ∃ e, r = .error e ∧ log.Holds d₀ here base d'
        { s with active := some ⟨k.content, now⟩ } := by
  rw [Action.run_tryCatch_eq, Disk.Program.ends_bind] at hends
  obtain ⟨x, d₁, hwrite, hrest⟩ := hends
  rcases h.ends_writeLine hb hk hwrite with ⟨rfl, h₁⟩ | ⟨e, n, t, rfl, h₁⟩
  · cases hrest
    exact .inl ⟨rfl, h₁⟩
  · right
    obtain ⟨d₂, htruncate, h₂⟩ := h₁.truncate hb now rfl k.content.length
    rw [List.take_left] at h₂
    have hcut : Disk.perform now d₁ (.truncate log.path k.content.length) = (.ok (), d₂) :=
      congrArg (Disk.changed d₁) htruncate
    cases hrest with
    | performed hrest =>
        rw [hcut] at hrest
        cases hrest
        exact ⟨e, rfl, h₂⟩
    -- Cutting the file back is none of the accesses that may fail.
    | failed hwriting => exact False.elim hwriting

theorem Holds.run_writeLine (now : Int) (line : List UInt8) :
    ∃ d', (writeLine log.path line).run.run now d = (.ok (), d') := by
  obtain ⟨d₁, happend, h₁⟩ := h.append hb now hk line
  have hadd : Disk.perform now d (.append log.path line) = (.ok (), d₁) :=
    congrArg (Disk.changed d) happend
  have hflush : Disk.perform now d₁ (.flush log.path) = (.ok (), d₁) := rfl
  refine ⟨d₁, ?_⟩
  rw [writeLine, Action.run_bind_ok (Action.run_access_ok hadd),
    Action.run_bind_ok (Action.run_access_ok hflush)]
  exact Action.run_access_ok (h₁.perform_sync hb now rfl)

theorem Holds.stops_writeLine {line bs : List UInt8}
    (hstop : Stops now (writeLine log.path line).run d bs d') :
    ∃ n t, bs = line.take n ∧ log.Holds d₀ here base d'
      { s with active := some ⟨k.content ++ line.take n, t⟩ } := by
  obtain ⟨d₁, happend, h₁⟩ := h.append hb now hk line
  have hadd : Disk.perform now d (.append log.path line) = (.ok (), d₁) :=
    congrArg (Disk.changed d) happend
  rw [writeLine] at hstop
  rcases Action.stops_access_bind hadd hstop with hpart | ⟨bs', hbs, hafter⟩
  · cases hpart with
    | nothing =>
        refine ⟨0, k.modified, rfl, ?_⟩
        rw [List.take_zero, List.append_nil, ← hk]
        exact h
    | added n hpart =>
        obtain ⟨d₂, hpart', h₂⟩ := h.append hb now hk (line.take n)
        rw [hpart'] at hpart
        cases hpart
        exact ⟨n, now, rfl, h₂⟩
  -- After the line has been added, nothing changes any more.
  · have hrest : bs' = [] ∧ d' = d₁ := by
      rcases Action.stops_reading_bind hafter (Action.only_access trivial) with hrest | ⟨u, -, hsync⟩
      · exact hrest
      · exact Action.stops_reading hsync trivial
    rw [hbs, hrest.1, hrest.2]
    refine ⟨line.length, now, ?_, ?_⟩
    · rw [List.take_length]
      exact List.append_nil line
    · rw [List.take_length]
      exact h₁

end Append

/-- What becomes of a ledger when an entry is to be added to it: it is left as it is, or only a
    rotation is made, or the active file is touched after that, or the entry is written to it. -/
inductive Ledger.Settled (log : Log) (moment : Moment) (l : Ledger) : List Entry → Ledger → Prop where
  | refused : Settled log moment l [] l
  | rotated {l' : Ledger} (h : l.Rotated log moment l') : Settled log moment l [] l'
  | touched {l' : Ledger} (h : l.Rotated log moment l') (now : Int) :
      Settled log moment l [] (l'.add [] now)
  | written {l' : Ledger} (h : l.Rotated log moment l') (e : Entry) :
      Settled log moment l [e] (l'.add [e] moment.seconds)

section Ledger

variable {log : Log} {d₀ d d' : Disk} {here : Place} {base : String} {l : Ledger}
  {moment : Moment} (hb : log.Begins d₀ here base) (h : log.Holds d₀ here base d l.shelf)

include hb h

/-- The active file is opened, and made if it is not there. -/
theorem Holds.openAppend (now : Int) : ∃ n d' k, d.openAppend now log.path = .ok (n, d') ∧
    n = k.content.length ∧ k.content = bytesOf l.currentEntries ∧
      log.Holds d₀ here base d' ⟨some k, l.closed.shelve⟩ := by
  cases hr : l.current with
  | none =>
      obtain ⟨d', hopen, h'⟩ := h.openAppend_none hb now (by rw [Ledger.shelf, hr]; rfl)
      refine ⟨0, d', ⟨[], now⟩, hopen, rfl, ?_, h'⟩
      rw [Ledger.currentEntries, hr]
      rfl
  | some r =>
      have hk : l.shelf.active = some r.kept := by
        rw [Ledger.shelf, hr]
        rfl
      refine ⟨_, d, r.kept, h.openAppend_some hb now hk, rfl, ?_, ?_⟩
      · rw [Ledger.currentEntries, hr]
        rfl
      · rw [← hk]
        exact h

omit hb h in
theorem Holds.shelf_add {es : List Entry} {now : Int} {bs : List UInt8}
    (h : log.Holds d₀ here base d ⟨some ⟨bs, now⟩, l.closed.shelve⟩)
    (hbs : bs = bytesOf (l.currentEntries ++ es)) :
    log.Holds d₀ here base d (l.add es now).shelf := by
  subst hbs
  exact h

/-- An append adds its entry and nothing else, or adds nothing and fails, whichever of its accesses
    fail, as long as a part of a line can be cut off again. -/
theorem Holds.ends_append (hplain : moment.today.Plain) {e : Entry} {r : Except StoreError Unit}
    (hends : Ends IsWriting moment.seconds (log.append moment e).run d r d') :
    ∃ es l', log.Holds d₀ here base d' l'.shelf ∧ l.Settled log moment es l' ∧
      (r = .ok () ∧ es = [e] ∨ ∃ err, r = .error err ∧ es = []) := by
  have honly := (only_rotateIfFull log moment).mono fun r hr => hr.not_isWriting
  rw [Log.append] at hends
  -- None of the accesses of a rotation writes a line, so it runs as the disk allows.
  rcases h.run_rotateIfFull hb hplain with ⟨-, err, hrefused⟩ | ⟨d₁, s', hdone, h₁, hrotated⟩
  · obtain ⟨rfl, rfl⟩ := Action.ends_bind_error hends honly hrefused
    exact ⟨[], l, h, .refused, .inr ⟨err, rfl, rfl⟩⟩
  have hends := Action.ends_bind_ok hends honly hdone
  obtain ⟨l₁, rfl, hl₁⟩ := Ledger.rotated_of_shelf hrotated
  obtain ⟨n, d₂, k, hopen, rfl, hcontent, h₂⟩ := h₁.openAppend hb moment.seconds
  have hperform : Disk.perform moment.seconds d₁ (.openAppend log.path)
      = (.ok k.content.length, d₂) := by
    rw [Disk.perform, hopen]
  have hempty : ∀ {d₃ : Disk} {t : Int}, log.Holds d₀ here base d₃
      ⟨some ⟨k.content, t⟩, l₁.closed.shelve⟩ → log.Holds d₀ here base d₃ (l₁.add [] t).shelf :=
    fun h₃ => Holds.shelf_add h₃ (by rw [List.append_nil, hcontent])
  rcases Action.ends_bind hends with ⟨len, d₃, haccess, hends⟩ | ⟨err, rfl, haccess⟩
  · rcases Action.ends_access haccess with haccess | ⟨-, fault, bs, hfault, -⟩
    · rw [Action.run_access_ok hperform] at haccess
      obtain ⟨hlen, rfl⟩ := Prod.mk.inj haccess
      obtain rfl := Except.ok.inj hlen
      rcases h₂.ends_tryWrite hb rfl hends with ⟨rfl, h₃⟩ | ⟨err, rfl, h₃⟩
      · refine ⟨[e], l₁.add [e] moment.seconds, Holds.shelf_add h₃ ?_,
          .written hl₁ e, .inl ⟨rfl, rfl⟩⟩
        rw [Segment.bytesOf_append, Segment.bytesOf_singleton, hcontent]
      · exact ⟨[], _, hempty h₃, .touched hl₁ _, .inr ⟨err, rfl, rfl⟩⟩
    · cases hfault
  · rcases Action.ends_access haccess with haccess | ⟨-, fault, bs, hfault, hpart⟩
    · rw [Action.run_access_ok hperform] at haccess
      cases haccess
    · cases hpart with
      | nothing => exact ⟨[], l₁, h₁, .rotated hl₁, .inr ⟨err, rfl, rfl⟩⟩
      | opened hpart =>
          rw [hopen] at hpart
          cases hpart
          exact ⟨[], _, hempty h₂, .touched hl₁ k.modified, .inr ⟨err, rfl, rfl⟩⟩

/-- An append succeeds as long as there is room for one more segment. -/
theorem Holds.run_append (hplain : moment.today.Plain) (e : Entry)
    (hroom : log.HasRoom d₀ here (l.closed.map Prod.fst) moment.today) :
    ∃ d', (log.append moment e).run.run moment.seconds d = (.ok (), d') := by
  rcases h.run_rotateIfFull hb hplain with ⟨hfull, -⟩ | ⟨d₁, s', hdone, h₁, hrotated⟩
  · rw [Ledger.shelf, Closed.map_fst_shelve] at hfull
    exact absurd hroom hfull
  obtain ⟨l₁, rfl, -⟩ := Ledger.rotated_of_shelf hrotated
  obtain ⟨n, d₂, k, hopen, rfl, -, h₂⟩ := h₁.openAppend hb moment.seconds
  have hperform : Disk.perform moment.seconds d₁ (.openAppend log.path)
      = (.ok k.content.length, d₂) := by
    rw [Disk.perform, hopen]
  obtain ⟨d₃, hwrite⟩ := h₂.run_writeLine hb rfl moment.seconds (Segment.line e)
  refine ⟨d₃, ?_⟩
  rw [Log.append, Action.run_bind_ok hdone, Action.run_bind_ok (Action.run_access_ok hperform)]
  exact Action.run_tryCatch_ok hwrite

/-- Where an append is stopped, its rotation has been made or not, and a part of its line may be in
    the active file. -/
theorem Holds.stops_append (hzero : log.retention = .zero) (hplain : moment.today.Plain) {e : Entry}
    {bs : List UInt8} (hstop : Stops moment.seconds (log.append moment e).run d bs d') :
    ∃ l', (l' = l ∨ l.Rotated log moment l') ∧ (bs = [] ∧ log.Holds d₀ here base d' l'.shelf ∨
      ∃ n t, bs = (Segment.line e).take n ∧ log.Holds d₀ here base d'
        ⟨some ⟨bytesOf l'.currentEntries ++ (Segment.line e).take n, t⟩, l'.closed.shelve⟩) := by
  rw [Log.append] at hstop
  rcases Action.stops_bind hstop with hstop | ⟨u, d₁, bs', hrotate, hbs, hstop⟩
  · obtain ⟨hbs, s', h', rfl | hrotated⟩ := h.stops_rotateIfFull hb hzero hplain hstop
    · exact ⟨l, .inl rfl, .inl ⟨hbs, h'⟩⟩
    · obtain ⟨l', rfl, hl'⟩ := Ledger.rotated_of_shelf hrotated
      exact ⟨l', .inr hl', .inl ⟨hbs, h'⟩⟩
  rw [((only_rotateIfFull log moment).mono fun r hr => hr.isSilent).written_eq,
    List.nil_append] at hbs
  subst hbs
  rcases h.run_rotateIfFull hb hplain with ⟨-, err, hrefused⟩ | ⟨d₁', s', hdone, h₁, hrotated⟩
  · rw [hrefused] at hrotate
    cases hrotate
  rw [hdone] at hrotate
  obtain rfl : d₁' = d₁ := (Prod.mk.inj hrotate).2
  obtain ⟨l₁, rfl, hl₁⟩ := Ledger.rotated_of_shelf hrotated
  refine ⟨l₁, .inr hl₁, ?_⟩
  obtain ⟨n, d₂, k, hopen, rfl, hcontent, h₂⟩ := h₁.openAppend hb moment.seconds
  have hperform : Disk.perform moment.seconds d₁' (.openAppend log.path)
      = (.ok k.content.length, d₂) := by
    rw [Disk.perform, hopen]
  rcases Action.stops_access_bind hperform hstop with hpart | ⟨bs₁, hbs₁, hafter⟩
  · cases hpart with
    | nothing => exact .inl ⟨rfl, h₁⟩
    | opened hpart =>
        rw [hopen] at hpart
        cases hpart
        refine .inr ⟨0, k.modified, rfl, ?_⟩
        rw [List.take_zero, List.append_nil, ← hcontent]
        exact h₂
  right
  have hwrite : Stops moment.seconds (writeLine log.path (Segment.line e)).run d₂ bs₁ d' := by
    rw [Action.run_tryCatch_eq] at hafter
    rcases Disk.Program.stops_bind hafter with hwrite | ⟨bs₂, hbs₂, hhandle⟩
    · exact hwrite
    -- All accesses succeed until the process is stopped, so nothing is cut back.
    · have hdone := Disk.Program.stops_run moment.seconds
        (writeLine log.path (Segment.line e)).run d₂
      obtain ⟨d₃, hrun⟩ := h₂.run_writeLine hb rfl moment.seconds (Segment.line e)
      rw [hrun] at hdone hhandle
      obtain ⟨hnil, hd⟩ := Disk.Program.stops_done hhandle
      rw [hbs₂, hnil, List.append_nil, hd]
      exact hdone
  obtain ⟨n, t, hbs₂, h₃⟩ := h₂.stops_writeLine hb rfl hwrite
  refine ⟨n, t, hbs₁.trans hbs₂, ?_⟩
  rw [← hcontent]
  exact h₃

/-! ## Replay -/

/-- What is read from a ledger: its segments in the order of their names, then the active file. -/
def Ledger.replay (l : Ledger) : Replay :=
  ⟨l.closed.inOrder.entries ++ l.currentEntries,
    l.closed.length + if l.current.isSome then 1 else 0, false⟩

omit hb h in
theorem Ledger.replay_entries (l : Ledger) (hasc : l.closed.Ascending) :
    l.replay.entries = l.entries := by
  rw [Ledger.replay, Closed.inOrder_of_ascending hasc]
  rfl

/-- A ledger is read without a change. -/
theorem Holds.run_replay (hv : ∀ x ∈ l.entries, x.Valid) (now : Int) :
    log.replay.run.run now d = (.ok l.replay, d) := by
  have hclosed : ∀ x ∈ l.closed.entries, x.Valid := fun x hx => hv x (List.mem_append_left _ hx)
  have hsegments : l.shelf.segments = l.closed.shelve := rfl
  cases hr : l.current with
  | none =>
      rw [h.run_replay_none hb hsegments (by rw [Ledger.shelf, hr]; rfl) hclosed,
        Ledger.replay, Ledger.currentEntries, hr]
      simp
  | some r =>
      have hcurrent : l.currentEntries = r.entries := by
        rw [Ledger.currentEntries, hr]
        rfl
      have hes : ∀ x ∈ r.entries, x.Valid := fun x hx =>
        hv x (List.mem_append_right _ (hcurrent ▸ hx))
      rw [h.run_replay_whole hb hsegments (by rw [Ledger.shelf, hr]; rfl) hclosed
        hes, Ledger.replay, hcurrent, hr]
      rfl

end Ledger

/-! ## A log to look at -/

/-- A log in the working directory that sets every line aside before it writes the next one. -/
def sample (retention : Span) : Log := ⟨"tasks.json".toList, 1, retention⟩

theorem begins_sample (retention : Span) : (sample retention).Begins ⟨.empty⟩ [] "tasks.json" :=
  begins_of_name rfl ⟨by decide, by decide, by decide, by decide⟩ (by decide)

/-- A moment of the first day of a year. -/
def sampleMoment (seconds : Int) : Moment :=
  ⟨seconds, ⟨⟨2024, 1, 1⟩, 0, 0, 0, 0⟩, ⟨2024, 1, 1⟩⟩

theorem plain_sampleMoment (seconds : Int) : (sampleMoment seconds).today.Plain :=
  show (⟨2024, 1, 1⟩ : CivilDate).Plain from ⟨by decide +kernel, by decide, by decide⟩

theorem valid_sampleMoment (seconds : Int) : (sampleMoment seconds).stamp.Valid :=
  show (⟨⟨2024, 1, 1⟩, 0, 0, 0, 0⟩ : Timestamp).Valid from
    ⟨by decide +kernel, by decide, by decide, by decide, by decide, by decide⟩

/-- The entry of a task without links. -/
def sampleEntry (id : TaskId) : Entry := ⟨.create (.fresh id []), (sampleMoment 0).stamp⟩

theorem valid_sampleEntry (id : TaskId) : (sampleEntry id).Valid := valid_sampleMoment 0

/-- There is room for ten segments and more. -/
theorem hasRoom_sample (retention : Span) (seconds : Int) {taken : List SegmentFile} {n : Nat}
    (hn : n < 10)
    (hfree : (sample retention).FirstFree taken (sampleMoment seconds).today n) :
    (sample retention).HasRoom ⟨.empty⟩ [] taken (sampleMoment seconds).today := by
  have hpath : ∀ n < 10, ¬ Disk.longestPath < (String.ofList ((sample .zero).pathOf
      ((sample .zero).family.segment (sampleMoment 0).today n))).utf8ByteSize := by
    decide +kernel
  have hname : ∀ n < 10, ¬ Disk.longestName <
      ((sample .zero).family.segment (sampleMoment 0).today n).name.utf8ByteSize := by
    decide +kernel
  have hsmall : n < Text.halfWordBound := Nat.lt_trans hn (by decide)
  have hproper := proper_segment (sample retention) (plain_sampleMoment seconds) hsmall
  exact ⟨n, hsmall, hfree,
    (begins_sample retention).fits_segment hproper (hpath n hn) (hname n hn)⟩

end Reachability.Log
