import Reachability.Proofs.Store.Books
import Reachability.Proofs.Store.Ids
import Reachability.Proofs.Store.Recovery
import Reachability.Proofs.Trail

set_option autoImplicit false

/-! # What readers of a store see

Creations, updates and reads come to one store and take their turns in any order; appends may fail.
Those who write have the writer's lock, one after the other, and readers need no lock. A reader sees
what the lines that have been written add up to, perhaps without the last one: between a line and
the moment at which its change is visible, the index is one line behind (`Shown`). The lines stand
in the order in which the lock was given (`Ordered`). If segments are kept for ever and a line that
could not be written is cut off again, these lines are what is read from the log. -/

namespace Reachability.StoreService

open Disk (Place)
open Disk.Program (Ends Stops)

/-! ## Appends that may fail -/

/-- The moments of a store, and how its appends come out: what each one answers, and the disk that
    it leaves. Accesses of a kind may fail. -/
structure Fortune (P : Disk.Request → Prop) where
  /-- What a time is taken for. -/
  moment : Nat → Moment
  /-- How the append of a change comes out. -/
  outcome : Nat → TaskKey → StoreService → Pending → Except StoreError Unit × Disk
  /-- That is one of the ways in which the append can come out. -/
  ends : ∀ now key s change, Ends P (moment now).seconds
    (s.store.log.append (moment now) (change.entry (moment now))).run s.disk
    (outcome now key s change).1 (outcome now key s change).2

/-- Nothing fails but what the disk refuses. -/
def Fortune.calm (P : Disk.Request → Prop) (moment : Nat → Moment) : Fortune P where
  moment := moment
  outcome now _ s change := (s.store.log.append (moment now) (change.entry (moment now))).run.run
    (moment now).seconds s.disk
  ends now _ s change := Disk.Program.ends_run P (moment now).seconds
    (s.store.log.append (moment now) (change.entry (moment now))).run s.disk

variable {P : Disk.Request → Prop} {w : Fortune P} {now : Nat} {key : TaskKey}
  {s : StoreService} {visit : Visit}

/-- One step of a call that need not wait, with an append that may fail. -/
def stepIn (w : Fortune P) (now : Nat) (key : TaskKey) (s : StoreService) :
    Visit → StoreService × Visit
  | .writing change => ({ s with disk := (w.outcome now key s change).2 },
      .written change (w.outcome now key s change).1)
  | visit => s.step .absent (w.moment now) now key visit

/-- Calls on a store without a front, as tasks. -/
def visiting (w : Fortune P) : Process StoreService Visit where
  wait now key s visit := visit.wait now key s
  isFinished := Visit.isAnswered
  step now key _ s visit := ⟨(s.stepIn w now key visit).1, (s.stepIn w now key visit).2, []⟩

/-- Without failures these are the steps of the service. -/
theorem stepIn_calm (P : Disk.Request → Prop) (moment : Nat → Moment) (now : Nat) (key : TaskKey)
    (s : StoreService) (visit : Visit) :
    s.stepIn (.calm P moment) now key visit = s.step .absent (moment now) now key visit := by
  cases visit <;> rfl

/-- A step writes a line, or is one of those that touch no disk. -/
theorem stepIn_cases (w : Fortune P) (now : Nat) (key : TaskKey) (s : StoreService)
    (visit : Visit) :
    (∃ change, visit = .writing change) ∨
      (∀ change, visit ≠ .writing change) ∧
        Moves .absent (w.moment now) now key s visit (s.stepIn w now key visit).1
          (s.stepIn w now key visit).2 := by
  cases visit with
  | writing change => exact .inl ⟨change, rfl⟩
  | _ => exact .inr ⟨nofun, moves_step ..⟩

/-! ## What has been done -/

/-- Whether a visit has written its line and not made its change visible. -/
def Visit.hasWritten : Visit → Bool
  | .written _ (.ok ()) => true
  | _ => false

/-- Who got the writer's lock, in this order. -/
def granted (deeds : List (Deed StoreService Visit)) : List TaskKey :=
  deeds.flatMap fun d => d.found.writer.gained d.turn.shared.writer

/-- The line that was written in a turn, and by whom. -/
def Fortune.lineOf (w : Fortune P) (d : Deed StoreService Visit) : Option (TaskKey × Log.Entry) :=
  match d.task, d.turn.task with
  | .writing change, .written _ (.ok ()) => some (d.key, change.entry (w.moment d.time))
  | _, _ => none

/-- The lines that were written, in this order, and by whom. -/
def Fortune.lines (w : Fortune P) (deeds : List (Deed StoreService Visit)) :
    List (TaskKey × Log.Entry) :=
  deeds.filterMap w.lineOf

/-- Who wrote a line, in this order. -/
def Fortune.writers (w : Fortune P) (deeds : List (Deed StoreService Visit)) : List TaskKey :=
  (w.lines deeds).map Prod.fst

/-- The entries of the lines that were written, after those that were read before. -/
def Fortune.entries (w : Fortune P) (es : List Log.Entry)
    (deeds : List (Deed StoreService Visit)) : List Log.Entry :=
  es ++ (w.lines deeds).map Prod.snd

/-! ## The lock -/

section Turn

variable {c : Crowd StoreService Visit} {deeds : List (Deed StoreService Visit)}
  {es : List Log.Entry}

/-- The visits of a crowd. -/
abbrev visitsOf (c : Crowd StoreService Visit) : TaskKey → Option Visit := fun key => c.tasks[key]?

theorem getElem?_turn_self (here : c.tasks[key]? = some visit) :
    (c.turn (visiting w) key visit).tasks[key]? = some (c.shared.stepIn w c.now key visit).2 :=
  Crowd.getElem?_after_self here

theorem getElem?_turn_of_ne {other : TaskKey} (hne : other ≠ key) :
    (c.turn (visiting w) key visit).tasks[other]? = c.tasks[other]? :=
  Crowd.getElem?_after_alone hne rfl

theorem Guarded.ready (h : Guarded c.shared (visitsOf c)) (can : c.CanGo (visiting w) key visit)
    (inside : visit.isInside = true) : c.shared.writer.holds key = true := by
  refine h.holds_of_isInside can.here (fun call hcall => ?_) inside
  subst hcall
  exact can.of_wait rfl

theorem passes_stepIn (w : Fortune P) (now : Nat)
    (ready : visit.isInside = true → s.writer.holds key = true) :
    s.writer.Passes key (visit.isInside = true) ((s.stepIn w now key visit).2.isInside = true)
      ((s.stepIn w now key visit).2.isWriting = true) (s.stepIn w now key visit).1.writer := by
  rcases stepIn_cases w now key s visit with ⟨change, rfl⟩ | ⟨-, hmoves⟩
  · exact .inside rfl rfl (ready rfl)
  · exact hmoves.passes ready

/-- Who leaves the inside is answered. -/
theorem Moves.isAnswered_of_isInside {front : StoreFront} {moment : Moment} {s' : StoreService}
    {visit' : Visit} (h : Moves front moment now key s visit s' visit')
    (inside : visit.isInside = true) (outside : visit'.isInside = false) :
    visit'.isAnswered = true := by
  cases h <;> first
    | rfl
    | exact absurd inside Bool.false_ne_true
    | exact absurd outside.symm Bool.false_ne_true

theorem isAnswered_stepIn (w : Fortune P) (now : Nat) (inside : visit.isInside = true)
    (outside : (s.stepIn w now key visit).2.isInside = false) :
    (s.stepIn w now key visit).2.isAnswered = true := by
  rcases stepIn_cases w now key s visit with ⟨change, rfl⟩ | ⟨-, hmoves⟩
  · cases outside
  · exact hmoves.isAnswered_of_isInside inside outside

theorem Guarded.turn (h : Guarded c.shared (visitsOf c)) (can : c.CanGo (visiting w) key visit) :
    Guarded (c.turn (visiting w) key visit).shared (visitsOf (c.turn (visiting w) key visit)) := by
  refine Permits.Guards.step h key ?_ (fun hwriting => ?_) fun other hne => ?_
  · rw [visitsOf, visitsOf, can.here, getElem?_turn_self can.here]
    exact passes_stepIn w c.now (h.ready can)
  · rw [visitsOf, getElem?_turn_self can.here] at hwriting ⊢
    exact Visit.isInside_of_isWriting hwriting
  · rw [visitsOf, visitsOf, getElem?_turn_of_ne hne]
    exact ⟨Iff.rfl, id⟩

/-- Who has made its change visible is outside. -/
theorem isInside_stepIn_of_hasWritten (w : Fortune P) (now : Nat) (key : TaskKey)
    (s : StoreService) (written : visit.hasWritten = true) :
    (s.stepIn w now key visit).2.isInside = false := by
  cases visit with
  | written change outcome =>
      cases outcome with
      | ok u => rfl
      | error e => cases written
  | _ => cases written

theorem Visit.isWriting_of_hasWritten (h : visit.hasWritten = true) : visit.isWriting = true := by
  cases visit <;> first | rfl | cases h

/-! ## The order of the lines -/

/-- The lines stand in the order in which the lock was given. Each task gets it once at most, and
    whoever has it and has not written yet got it after all who wrote. -/
structure Ordered (w : Fortune P) (deeds : List (Deed StoreService Visit))
    (c : Crowd StoreService Visit) : Prop where
  sublist : (w.writers deeds).Sublist (granted deeds)
  nodup : (granted deeds).Nodup
  past : ∀ key ∈ granted deeds, c.shared.writer.holds key = true ∨
    (c.tasks[key]?).any Visit.isAnswered = true
  current : ∀ key, c.shared.writer.holds key = true →
    (c.tasks[key]?).any Visit.hasWritten = false →
      ∃ before, granted deeds = before ++ [key] ∧ (w.writers deeds).Sublist before

theorem granted_append (deeds : List (Deed StoreService Visit)) (d : Deed StoreService Visit) :
    granted (deeds ++ [d]) = granted deeds ++ d.found.writer.gained d.turn.shared.writer := by
  simp [granted]

theorem Fortune.lines_append (w : Fortune P) (deeds : List (Deed StoreService Visit))
    (d : Deed StoreService Visit) :
    w.lines (deeds ++ [d]) = w.lines deeds ++ (w.lineOf d).toList := by
  rw [lines, List.filterMap_append, lines]
  cases hline : w.lineOf d <;> simp [hline]

theorem Fortune.writers_append (deeds : List (Deed StoreService Visit))
    {d : Deed StoreService Visit} {line : TaskKey × Log.Entry} (h : w.lineOf d = some line) :
    w.writers (deeds ++ [d]) = w.writers deeds ++ [line.1] := by
  rw [writers, lines_append, h, List.map_append]
  rfl

theorem Fortune.writers_append_of_none (deeds : List (Deed StoreService Visit))
    {d : Deed StoreService Visit} (h : w.lineOf d = none) :
    w.writers (deeds ++ [d]) = w.writers deeds := by
  rw [writers, lines_append, h, Option.toList_none, List.append_nil, writers]

section Lines

variable {change : Pending}

theorem lineOf_of_ok (hok : (w.outcome c.now key c.shared change).1 = .ok ()) :
    w.lineOf (c.deed (visiting w) key (.writing change))
      = some (key, change.entry (w.moment c.now)) := by
  have htask : (c.deed (visiting w) key (.writing change)).turn.task = .written change (.ok ()) :=
    congrArg (Visit.written change) hok
  unfold Fortune.lineOf
  rw [htask]
  rfl

theorem lineOf_of_error {e : StoreError}
    (herror : (w.outcome c.now key c.shared change).1 = .error e) :
    w.lineOf (c.deed (visiting w) key (.writing change)) = none := by
  have htask : (c.deed (visiting w) key (.writing change)).turn.task = .written change (.error e) :=
    congrArg (Visit.written change) herror
  unfold Fortune.lineOf
  rw [htask]
  rfl

theorem lineOf_of_ne (h : ∀ change, visit ≠ .writing change) :
    w.lineOf (c.deed (visiting w) key visit) = none := by
  cases visit with
  | writing change => exact absurd rfl (h change)
  | _ => rfl

end Lines

/-- Who has just been given the lock did not have it before. -/
theorem Ordered.not_mem_granted (h : Ordered w deeds c)
    (can : c.CanGo (visiting w) key visit) {next : TaskKey}
    (free : c.shared.writer.holds next = false)
    (who : next = key ∧ ¬ (c.tasks[key]?).any Visit.isInside = true ∨
      next ≠ key ∧ (c.tasks[next]?).any Visit.isInside = true) : next ∉ granted deeds := by
  intro hmem
  rcases h.past next hmem with hholds | hanswered
  · rw [hholds] at free
    cases free
  · rcases who with ⟨rfl, -⟩ | ⟨-, hinside⟩
    · rw [can.here, Option.any_some, show visit.isAnswered = false from can.unfinished] at hanswered
      cases hanswered
    · rw [Option.any_eq_true] at hanswered hinside
      obtain ⟨visit', hvisit', hanswered⟩ := hanswered
      obtain ⟨visit'', hvisit'', hinside⟩ := hinside
      rw [hvisit'] at hvisit''
      cases hvisit''
      cases visit' <;> first
        | exact absurd hanswered Bool.false_ne_true
        | exact absurd hinside Bool.false_ne_true

/-- Whoever got the lock keeps it or is answered. -/
theorem Ordered.past_turn (h : Ordered w deeds c) (guarded : Guarded c.shared (visitsOf c))
    (can : c.CanGo (visiting w) key visit) {other : TaskKey} (hmem : other ∈ granted deeds) :
    (c.turn (visiting w) key visit).shared.writer.holds other = true ∨
      ((c.turn (visiting w) key visit).tasks[other]?).any Visit.isAnswered = true := by
  have hpasses := passes_stepIn w c.now (guarded.ready can)
  by_cases hne : other = key
  · subst hne
    rcases h.past other hmem with hholds | hanswered
    · have hinside := guarded.serves.of_holds hholds
      rw [visitsOf, can.here, Option.any_some] at hinside
      by_cases hstays : (c.shared.stepIn w c.now other visit).2.isInside = true
      · exact .inl (hpasses.holds hholds fun _ => ⟨hinside, hstays⟩)
      · rw [getElem?_turn_self can.here, Option.any_some]
        exact .inr (isAnswered_stepIn w c.now hinside (Bool.eq_false_iff.2 hstays))
    · rw [can.here, Option.any_some, show visit.isAnswered = false from can.unfinished]
        at hanswered
      cases hanswered
  · rw [getElem?_turn_of_ne hne]
    exact (h.past other hmem).imp_left fun hholds =>
      hpasses.holds hholds fun heq => absurd heq hne

/-- A turn in which a line may be written. The lock stays where it is. -/
theorem Ordered.turn_writing {change : Pending} (h : Ordered w deeds c)
    (guarded : Guarded c.shared (visitsOf c)) (can : c.CanGo (visiting w) key (.writing change)) :
    Ordered w (deeds ++ [c.deed (visiting w) key (.writing change)])
      (c.turn (visiting w) key (.writing change)) := by
  have hholds : c.shared.writer.holds key = true := guarded.ready can rfl
  have honly : ∀ other, c.shared.writer.holds other = true → other = key := fun other hother =>
    Permits.holds_unique guarded.lock hother hholds
  have hgranted : granted (deeds ++ [c.deed (visiting w) key (.writing change)])
      = granted deeds := by
    rw [granted_append]
    exact (congrArg _ (Permits.gained_self c.shared.writer)).trans (List.append_nil _)
  have hpast : ∀ other ∈ granted (deeds ++ [c.deed (visiting w) key (.writing change)]), _ :=
    fun other hmem => h.past_turn guarded can (hgranted ▸ hmem)
  obtain ⟨before, hbefore, hsub⟩ := h.current key hholds (by rw [can.here]; rfl)
  cases houtcome : (w.outcome c.now key c.shared change).1 with
  | ok u =>
      refine ⟨?_, hgranted ▸ h.nodup, hpast, fun other hother hnot => ?_⟩
      · rw [Fortune.writers_append deeds (lineOf_of_ok houtcome), hgranted, hbefore]
        exact hsub.append_right [key]
      · have hwritten : (c.shared.stepIn w c.now key (.writing change)).2
            = .written change (.ok ()) := congrArg (Visit.written change) houtcome
        rw [honly other hother, getElem?_turn_self can.here, Option.any_some, hwritten] at hnot
        cases hnot
  | error e =>
      have hwriters := Fortune.writers_append_of_none deeds (lineOf_of_error houtcome)
      refine ⟨?_, hgranted ▸ h.nodup, hpast, fun other hother _ => ?_⟩
      · rw [hwriters, hgranted]
        exact h.sublist
      · rw [hwriters, hgranted, honly other hother]
        exact ⟨before, hbefore, hsub⟩

/-- A turn in which nobody writes a line or gets the lock. -/
theorem Ordered.turn_still (h : Ordered w deeds c) (guarded : Guarded c.shared (visitsOf c))
    (can : c.CanGo (visiting w) key visit)
    (nothing : w.lineOf (c.deed (visiting w) key visit) = none)
    (nobody : c.shared.writer.gained (c.shared.stepIn w c.now key visit).1.writer = []) :
    Ordered w (deeds ++ [c.deed (visiting w) key visit]) (c.turn (visiting w) key visit) := by
  have hself := getElem?_turn_self (w := w) can.here
  have hwriters := Fortune.writers_append_of_none deeds nothing
  have hgranted : granted (deeds ++ [c.deed (visiting w) key visit]) = granted deeds :=
    (granted_append ..).trans ((congrArg _ nobody).trans (List.append_nil _))
  refine ⟨?_, hgranted ▸ h.nodup, fun other hmem => h.past_turn guarded can (hgranted ▸ hmem),
    fun other hother hnot => ?_⟩
  · rw [hwriters, hgranted]
    exact h.sublist
  · have hbefore : c.shared.writer.holds other = true := by
      by_contra hfree
      have hmem : other ∈ ([] : List TaskKey) :=
        nobody ▸ Permits.mem_gained.2 ⟨hother, Bool.eq_false_iff.2 hfree⟩
      cases hmem
    rw [hwriters, hgranted]
    refine h.current other hbefore (Bool.eq_false_iff.2 fun hwritten => ?_)
    by_cases hne : other = key
    · subst hne
      rw [can.here, Option.any_some] at hwritten
      have hinside := (guarded.turn can).serves.of_holds hother
      rw [visitsOf, hself, Option.any_some,
        isInside_stepIn_of_hasWritten w c.now other c.shared hwritten] at hinside
      cases hinside
    · rw [getElem?_turn_of_ne hne, hwritten] at hnot
      cases hnot

/-- A turn in which nobody writes a line, and a task gets the lock. -/
theorem Ordered.turn_grants (h : Ordered w deeds c) (guarded : Guarded c.shared (visitsOf c))
    (can : c.CanGo (visiting w) key visit)
    (nothing : w.lineOf (c.deed (visiting w) key visit) = none) {next : TaskKey}
    (grants : c.shared.writer.gained (c.shared.stepIn w c.now key visit).1.writer = [next])
    (who : next = key ∧ ¬ (c.tasks[key]?).any Visit.isInside = true ∨
      next ≠ key ∧ (c.tasks[next]?).any Visit.isInside = true) :
    Ordered w (deeds ++ [c.deed (visiting w) key visit]) (c.turn (visiting w) key visit) := by
  have hwriters := Fortune.writers_append_of_none deeds nothing
  have hgranted : granted (deeds ++ [c.deed (visiting w) key visit]) = granted deeds ++ [next] :=
    (granted_append ..).trans (congrArg _ grants)
  obtain ⟨hgets, hfree⟩ := Permits.mem_gained.1
    (show next ∈ c.shared.writer.gained _ from grants ▸ List.mem_singleton_self next)
  have hnew := h.not_mem_granted can hfree who
  refine ⟨?_, ?_, fun other hmem => ?_, fun other hother _ => ⟨granted deeds, ?_, ?_⟩⟩
  · rw [hwriters, hgranted]
    exact h.sublist.trans (List.sublist_append_left ..)
  · rw [hgranted]
    exact List.nodup_append.2 ⟨h.nodup, List.nodup_singleton next, fun a ha b hb hab =>
      hnew (List.mem_singleton.1 hb ▸ hab ▸ ha)⟩
  · rw [hgranted] at hmem
    rcases List.mem_append.1 hmem with hmem | hmem
    · exact h.past_turn guarded can hmem
    · rw [List.mem_singleton.1 hmem]
      exact .inl hgets
  · rw [hgranted, Permits.holds_unique (guarded.turn can).lock hother hgets]
  · rw [hwriters]
    exact h.sublist

/-- A turn keeps the order. -/
theorem Ordered.turn (h : Ordered w deeds c) (guarded : Guarded c.shared (visitsOf c))
    (can : c.CanGo (visiting w) key visit) :
    Ordered w (deeds ++ [c.deed (visiting w) key visit]) (c.turn (visiting w) key visit) := by
  have hpasses := passes_stepIn w c.now (guarded.ready can)
  have hhere : (visitsOf c key).any Visit.isInside = visit.isInside := by
    rw [visitsOf, can.here, Option.any_some]
  rcases stepIn_cases w c.now key c.shared visit with ⟨change, rfl⟩ | ⟨hwriting, -⟩
  · exact h.turn_writing guarded can
  · rcases hpasses.gained_cases guarded.serves (by rw [hhere]) with hnone | ⟨next, hnext, who⟩
    · exact h.turn_still guarded can (lineOf_of_ne hwriting) hnone
    · exact h.turn_grants guarded can (lineOf_of_ne hwriting) hnext who

/-! ## What the index shows -/

/-- Nobody has written its line without having made its change visible. -/
def Unwritten (c : Crowd StoreService Visit) : Prop :=
  ∀ (key : TaskKey) (visit : Visit), c.tasks[key]? = some visit → visit.hasWritten = false

/-- The index has what the entries add up to, but for the last one, if whoever has written that has
    not made it visible yet. -/
structure Shown (es : List Log.Entry) (c : Crowd StoreService Visit) : Prop where
  all : Unwritten c → c.shared.store.index.tasks = (Index.ofEntries es).tasks
  butLast : ∀ (key : TaskKey) (change : Pending), c.tasks[key]? = some (.written change (.ok ())) →
    ∃ before moment, es = before ++ [change.entry moment] ∧
      c.shared.store.index.tasks = (Index.ofEntries before).tasks

/-- A step that writes no line and makes nothing visible leaves the tasks of the index alone. -/
theorem Moves.index_eq {front : StoreFront} {moment : Moment} {s' : StoreService}
    {visit' : Visit} (h : Moves front moment now key s visit s' visit')
    (hwriting : ∀ change, visit ≠ .writing change) (hnot : visit.hasWritten = false) :
    visit'.hasWritten = false ∧ s'.store.index.tasks = s.store.index.tasks := by
  cases h with
  | wrote run => exact absurd rfl (hwriting _)
  | settled => cases hnot
  | _ => exact ⟨rfl, rfl⟩

/-- As long as somebody is about to write or about to make its change visible, nobody else has
    written. -/
theorem Guarded.hasWritten_eq_false (h : Guarded c.shared (visitsOf c))
    (here : c.tasks[key]? = some visit) (writing : visit.isWriting = true) {other : TaskKey}
    {visit' : Visit} (hne : other ≠ key) (hother : c.tasks[other]? = some visit') :
    visit'.hasWritten = false := by
  refine Bool.eq_false_iff.2 fun hwritten => hne ?_
  refine h.unique ?_ ?_
  · rw [visitsOf, hother, Option.any_some, Visit.isWriting_of_hasWritten hwritten]
  · rw [visitsOf, here, Option.any_some, writing]

theorem Guarded.unwritten (h : Guarded c.shared (visitsOf c)) (here : c.tasks[key]? = some visit)
    (writing : visit.isWriting = true) (hnot : visit.hasWritten = false) : Unwritten c := by
  intro other visit' hother
  by_cases hne : other = key
  · rw [hne, here] at hother
    exact Option.some.inj hother ▸ hnot
  · exact h.hasWritten_eq_false here writing hne hother

/-- A turn that writes no line and makes nothing visible. -/
theorem Shown.turn_plain (h : Shown es c) (here : c.tasks[key]? = some visit)
    (before : visit.hasWritten = false)
    (after : (c.shared.stepIn w c.now key visit).2.hasWritten = false)
    (tasks : (c.shared.stepIn w c.now key visit).1.store.index.tasks
      = c.shared.store.index.tasks) : Shown es (c.turn (visiting w) key visit) where
  all hnone := by
    refine tasks.trans (h.all fun other visit' hother => ?_)
    by_cases hne : other = key
    · rw [hne, here] at hother
      exact Option.some.inj hother ▸ before
    · exact hnone other visit' ((getElem?_turn_of_ne hne).trans hother)
  butLast other change hother := by
    by_cases hne : other = key
    · rw [hne, getElem?_turn_self here] at hother
      rw [Option.some.inj hother] at after
      cases after
    · rw [getElem?_turn_of_ne hne] at hother
      obtain ⟨es', moment, hes, hindex⟩ := h.butLast other change hother
      exact ⟨es', moment, hes, tasks.trans hindex⟩

/-- A line is written. -/
theorem Shown.turn_write {change : Pending} (h : Shown es c)
    (guarded : Guarded c.shared (visitsOf c)) (here : c.tasks[key]? = some (.writing change))
    (hok : (w.outcome c.now key c.shared change).1 = .ok ()) :
    Shown (es ++ [change.entry (w.moment c.now)]) (c.turn (visiting w) key (.writing change)) := by
  have hindex := h.all (guarded.unwritten here rfl rfl)
  have hself : (c.turn (visiting w) key (.writing change)).tasks[key]?
      = some (.written change (.ok ())) :=
    (getElem?_turn_self here).trans (congrArg some (congrArg (Visit.written change) hok))
  refine ⟨fun hnone => ?_, fun other change' hother => ?_⟩
  · cases hnone key _ hself
  · by_cases hne : other = key
    · rw [hne, hself] at hother
      cases hother
      exact ⟨es, _, rfl, hindex⟩
    · rw [getElem?_turn_of_ne hne] at hother
      cases guarded.hasWritten_eq_false here rfl hne hother

/-- A change is made visible. -/
theorem Shown.turn_settle {change : Pending} (h : Shown es c)
    (guarded : Guarded c.shared (visitsOf c))
    (here : c.tasks[key]? = some (.written change (.ok ()))) :
    Shown es (c.turn (visiting w) key (.written change (.ok ()))) := by
  obtain ⟨before, moment, rfl, hindex⟩ := h.butLast key change here
  refine ⟨fun _ => Books.tasks_publish hindex moment change, fun other change' hother => ?_⟩
  by_cases hne : other = key
  · rw [hne, getElem?_turn_self here] at hother
    cases hother
  · rw [getElem?_turn_of_ne hne] at hother
    cases guarded.hasWritten_eq_false here rfl hne hother

/-- A turn keeps the index up to the lines. -/
theorem Shown.turn (h : Shown (w.entries es deeds) c) (guarded : Guarded c.shared (visitsOf c))
    (can : c.CanGo (visiting w) key visit) :
    Shown (w.entries es (deeds ++ [c.deed (visiting w) key visit]))
      (c.turn (visiting w) key visit) := by
  rw [Fortune.entries, Fortune.lines_append, List.map_append, ← List.append_assoc,
    ← Fortune.entries]
  rcases stepIn_cases w c.now key c.shared visit with ⟨change, rfl⟩ | ⟨hwriting, hmoves⟩
  · cases houtcome : (w.outcome c.now key c.shared change).1 with
    | ok u =>
        rw [lineOf_of_ok houtcome]
        exact h.turn_write guarded can.here houtcome
    | error e =>
        rw [lineOf_of_error houtcome, Option.toList_none, List.map_nil, List.append_nil]
        have hself :
            (c.shared.stepIn w c.now key (.writing change)).2 = .written change (.error e) :=
          congrArg (Visit.written change) houtcome
        exact h.turn_plain can.here rfl (by rw [hself]; rfl) rfl
  · rw [lineOf_of_ne hwriting, Option.toList_none, List.map_nil, List.append_nil]
    by_cases hwritten : visit.hasWritten = true
    · cases visit with
      | written change outcome =>
          cases outcome with
          | ok u => exact h.turn_settle guarded can.here
          | error e => cases hwritten
      | _ => cases hwritten
    · obtain ⟨hafter, htasks⟩ := hmoves.index_eq hwriting (Bool.eq_false_iff.2 hwritten)
      exact h.turn_plain can.here (Bool.eq_false_iff.2 hwritten) hafter htasks

/-! ## Runs -/

/-- A call that comes in. -/
def Visit.IsCall (visit : Visit) : Prop := ∃ call, visit = .arriving call

/-- The lock, the order of the lines and the index are as they should be. -/
structure Kept (w : Fortune P) (es : List Log.Entry) (deeds : List (Deed StoreService Visit))
    (c : Crowd StoreService Visit) : Prop where
  guarded : Guarded c.shared (visitsOf c)
  ordered : Ordered w deeds c
  shown : Shown (w.entries es deeds) c

theorem Kept.first (w : Fortune P) (log : Log) (es : List Log.Entry) (disk : Disk) (start : Nat) :
    Kept w es [] ⟨start, .ofStore ⟨log, .ofEntries es⟩ disk, []⟩ where
  guarded := by
    refine ⟨rfl, (Permits.serves_ofNat 1).congr fun key => ?_, fun key hkey => ?_⟩
    · exact ⟨False.elim, nofun⟩
    · cases hkey
  ordered := ⟨.slnil, .nil, nofun, nofun⟩
  shown := by
    rw [Fortune.entries, show w.lines [] = [] from rfl, List.map_nil, List.append_nil]
    exact ⟨fun _ => rfl, nofun⟩

theorem Kept.call (h : Kept w es deeds c) (call : visit.IsCall) :
    Kept w es deeds (c.call visit) := by
  obtain ⟨call, rfl⟩ := call
  have hany : ∀ (Q : Visit → Bool), Q (.arriving call) = false → ∀ key : TaskKey,
      ((c.call (.arriving call)).tasks[key]?).any Q = (c.tasks[key]?).any Q :=
    fun Q fresh key => Crowd.any_call Q fresh key
  refine ⟨?_, ⟨h.ordered.sublist, h.ordered.nodup, fun key hmem => ?_, fun key hholds hnot => ?_⟩,
    ⟨fun hnone => ?_, fun key change hkey => ?_⟩⟩
  · refine h.guarded.congr (fun key => ?_) fun key hkey => ?_
    · rw [visitsOf, hany Visit.isInside rfl]
    · rw [visitsOf, hany Visit.isWriting rfl] at hkey
      exact hkey
  · rw [hany Visit.isAnswered rfl]
    exact h.ordered.past key hmem
  · rw [hany Visit.hasWritten rfl] at hnot
    exact h.ordered.current key hholds hnot
  · exact h.shown.all fun key visit hkey => hnone key visit (Crowd.getElem?_call_of_some hkey)
  · rcases Crowd.getElem?_call hkey with ⟨-, hnew⟩ | hold
    · cases hnew
    · exact h.shown.butLast key change hold

theorem Kept.of_trail {pace : Crowd StoreService Visit → Nat → Prop}
    {first : Crowd StoreService Visit} (hfirst : Kept w es [] first)
    (trail : Crowd.Trail (visiting w) pace Visit.IsCall first deeds c) : Kept w es deeds c := by
  induction trail with
  | begin => exact hfirst
  | turn trail can ih =>
      exact ⟨ih.guarded.turn can, ih.ordered.turn ih.guarded can, ih.shown.turn ih.guarded can⟩
  | await trail le may ih =>
      exact ⟨ih.guarded, ⟨ih.ordered.sublist, ih.ordered.nodup, ih.ordered.past,
        ih.ordered.current⟩, ih.shown.all, ih.shown.butLast⟩
  | call trail may ih => exact ih.call may

/-! ## The disk -/

section Disk

variable {log : Log} {d₀ : Disk} {here : Place} {base : String} {today : CivilDate}

/-- No step changes what the log is, and only an append touches the disk. -/
theorem Moves.disk_eq {front : StoreFront} {moment : Moment} {s' : StoreService}
    {visit' : Visit} (h : Moves front moment now key s visit s' visit')
    (hwriting : ∀ change, visit ≠ .writing change) :
    s'.disk = s.disk ∧ s'.store.log = s.store.log := by
  cases h with
  | wrote run => exact absurd rfl (hwriting _)
  | @settled change =>
      refine ⟨rfl, ?_⟩
      cases change <;> rfl
  | _ => exact ⟨rfl, rfl⟩

/-- The entries of the lines are those that a replay would read. -/
def OnDisk (log : Log) (d₀ : Disk) (here : Place) (base : String) (w : Fortune P)
    (es : List Log.Entry) (c : Crowd StoreService Visit) : Prop :=
  Store.Recoverable log d₀ here base (w.moment c.now).today c.shared.disk (some c.shared.store) es

theorem OnDisk.turn (h : OnDisk log d₀ here base w (w.entries es deeds) c)
    (site : Site log d₀ here base w.moment) (writes : ∀ r, P r → Log.IsWriting r)
    (can : c.CanGo (visiting w) key visit) :
    OnDisk log d₀ here base w (w.entries es (deeds ++ [c.deed (visiting w) key visit]))
      (c.turn (visiting w) key visit) := by
  have hlog : c.shared.store.log = log := h.choose_spec.1.1
  rw [Fortune.entries, Fortune.lines_append, List.map_append, ← List.append_assoc,
    ← Fortune.entries]
  rcases stepIn_cases w c.now key c.shared visit with ⟨change, rfl⟩ | ⟨hwriting, hmoves⟩
  · have hends := (w.ends c.now key c.shared change).mono writes
    have hnext := Store.Recoverable.ends_append site.begins site.forever h (CivilDate.upTo_refl _)
      (site.plain c.now) (Books.valid_entry (site.valid c.now) change) hlog hends
    cases houtcome : (w.outcome c.now key c.shared change).1 with
    | ok u =>
        rw [lineOf_of_ok houtcome]
        rw [houtcome] at hnext
        exact hnext
    | error e =>
        rw [lineOf_of_error houtcome]
        rw [houtcome] at hnext
        exact hnext
  · obtain ⟨hdisk, hlog'⟩ := hmoves.disk_eq hwriting
    rw [lineOf_of_ne hwriting, Option.toList_none, List.map_nil, List.append_nil]
    obtain ⟨l, ⟨-, hholds⟩, hrest⟩ := h
    exact ⟨l, ⟨hlog'.trans hlog, hdisk ▸ hholds⟩, hrest⟩

theorem OnDisk.of_trail {pace : Crowd StoreService Visit → Nat → Prop}
    {first : Crowd StoreService Visit} (hfirst : OnDisk log d₀ here base w es first)
    (site : Site log d₀ here base w.moment) (writes : ∀ r, P r → Log.IsWriting r)
    (trail : Crowd.Trail (visiting w) pace Visit.IsCall first deeds c) :
    OnDisk log d₀ here base w (w.entries es deeds) c := by
  induction trail with
  | begin =>
      rw [Fortune.entries, show w.lines [] = [] from rfl, List.map_nil, List.append_nil]
      exact hfirst
  | turn trail can ih => exact ih.turn site writes can
  | await trail le may ih => exact Store.Recoverable.mono ih (site.forward _ _ le)
  | call trail may ih => exact ih

end Disk

end Turn

/-! ## What is seen -/

section Seen

variable (w : Fortune P) (es : List Log.Entry) (deeds : List (Deed StoreService Visit))
  (c : Crowd StoreService Visit)

/-- What writers and readers see, by the entries that the log had when the store was opened and the
    lines that were written since. -/
structure Consistent : Prop where
  /-- The lines stand in the order in which the lock was given, at most one for each time. -/
  order : (w.writers deeds).Sublist (granted deeds) ∧ (granted deeds).Nodup
  /-- While nobody has the lock, the index has what the entries add up to. -/
  idle : (∀ key, c.shared.writer.holds key = false) →
    c.shared.store.index.tasks = (Index.ofEntries (w.entries es deeds)).tasks
  /-- A read is answered with what the entries add up to, perhaps without the last one. -/
  read : ∀ (key : TaskKey) (ids : List TaskId), c.tasks[key]? = some (.arriving (.read ids)) →
    ∃ tasks, (c.turn (visiting w) key (.arriving (.read ids))).tasks[key]?
        = some (.answered (.ok (.tasks tasks))) ∧
      (tasks = (Index.ofEntries (w.entries es deeds)).select ids ∨
        tasks = (Index.ofEntries (w.entries es deeds).dropLast).select ids)

/-- These entries are what is read from the log, also within an append: then perhaps with the entry
    that is being written, and the index is not behind the others. -/
structure Persistent (log : Log) : Prop where
  replay : ∀ now, ∃ r d, log.replay.run.run now c.shared.disk = (.ok r, d) ∧
    r.entries = w.entries es deeds
  within : ∀ (key : TaskKey) (change : Pending), c.tasks[key]? = some (.writing change) →
    c.shared.store.index.tasks = (Index.ofEntries (w.entries es deeds)).tasks ∧
    ∀ bs d, Stops (w.moment c.now).seconds
      (log.append (w.moment c.now) (change.entry (w.moment c.now))).run c.shared.disk bs d →
      ∀ now, ∃ r d', log.replay.run.run now d = (.ok r, d') ∧
        (r.entries = w.entries es deeds ∨
          r.entries = w.entries es deeds ++ [change.entry (w.moment c.now)])

variable {w es deeds c}

theorem Kept.consistent (h : Kept w es deeds c) : Consistent w es deeds c where
  order := ⟨h.ordered.sublist, h.ordered.nodup⟩
  idle hfree := by
    refine h.shown.all fun key visit hkey => Bool.eq_false_iff.2 fun hwritten => ?_
    have hholds := h.guarded.holds key (by
      rw [visitsOf, hkey, Option.any_some, Visit.isWriting_of_hasWritten hwritten])
    rw [hfree key] at hholds
    cases hholds
  read key ids hkey := by
    refine ⟨c.shared.store.get ids, getElem?_turn_self hkey, ?_⟩
    show c.shared.store.index.select ids = _ ∨ c.shared.store.index.select ids = _
    unfold Index.select
    by_cases hnone : Unwritten c
    · rw [h.shown.all hnone]
      exact .inl rfl
    · obtain ⟨other, visit, hother, hwritten⟩ : ∃ (other : TaskKey) (visit : Visit),
          c.tasks[other]? = some visit ∧ visit.hasWritten = true := by
        simpa [Unwritten] using hnone
      obtain ⟨change, rfl⟩ : ∃ change, visit = .written change (.ok ()) := by
        cases visit with
        | written change outcome =>
            cases outcome with
            | ok u => exact ⟨change, rfl⟩
            | error e => cases hwritten
        | _ => cases hwritten
      obtain ⟨before, moment, hentries, hindex⟩ := h.shown.butLast other change hother
      rw [hindex, hentries, List.dropLast_concat]
      exact .inr rfl

theorem Kept.persistent (h : Kept w es deeds c) {log : Log} {d₀ : Disk} {here : Place}
    {base : String} (site : Site log d₀ here base w.moment)
    (onDisk : OnDisk log d₀ here base w (w.entries es deeds) c) :
    Persistent w es deeds c log where
  replay now := by
    obtain ⟨r, d, hrun, hentries, -⟩ := Store.Recoverable.run_replay site.begins onDisk now
    exact ⟨r, d, hrun, hentries⟩
  within key change hkey := by
    refine ⟨h.shown.all (h.guarded.unwritten hkey rfl rfl), fun bs d hstops now => ?_⟩
    have hlog : c.shared.store.log = log := onDisk.choose_spec.1.1
    rw [← hlog] at hstops
    have hstopped := Store.Recoverable.stops_append site.begins site.forever onDisk
      (CivilDate.upTo_refl _) (site.plain c.now) (Books.valid_entry (site.valid c.now) change)
      hstops
    obtain ⟨r, d', hrun, hentries, -⟩ := hstopped.run_replay site.begins now
    refine ⟨r, d', hrun, ?_⟩
    rw [hentries, Log.reached]
    split
    · exact .inr rfl
    · exact .inl (List.append_nil _)

end Seen

/-- A store is opened with what is read from its log. -/
theorem opened_eq_ok {log : Log} {d d' : Disk} {now : Int} {store : Store}
    (h : (Store.opened log).run.run now d = (.ok store, d')) :
    ∃ r, log.replay.run.run now d = (.ok r, d') ∧ store = ⟨log, .ofEntries r.entries⟩ := by
  cases hreplay : log.replay.run.run now d with
  | mk x d₁ =>
    cases x with
    | ok r =>
        rw [Store.opened, Store.run_load (s := Store.fresh log) hreplay] at h
        cases h
        exact ⟨r, rfl, rfl⟩
    | error e =>
        have herror : (Store.opened log).run.run now d = (.error e, d₁) :=
          Log.Action.run_bind_error hreplay
        rw [herror] at h
        cases h

/-- Whatever calls come to a store that was opened, in whatever order they take their turns and
    however their appends fail, its readers see what the lines add up to that were written, but for
    the last one perhaps, and the lines stand in the order in which the lock was given. If segments
    are kept for ever, dates do not go back and a line that cannot be written is cut off again,
    these lines are what is read from the log. -/
theorem readers_see_lines (w : Fortune P) {log : Log} {d d₁ : Disk} {now : Int} {store : Store}
    (opens : (Store.opened log).run.run now d = (.ok store, d₁)) {start : Nat}
    {deeds : List (Deed StoreService Visit)} {c : Crowd StoreService Visit}
    (trail : Crowd.Trail (visiting w) Crowd.anyTime Visit.IsCall
      ⟨start, .ofStore store d₁, []⟩ deeds c) :
    ∃ r, log.replay.run.run now d = (.ok r, d₁) ∧ Consistent w r.entries deeds c ∧
      ∀ d₀ here base today es₀, Site log d₀ here base w.moment → (∀ r, P r → Log.IsWriting r) →
        Store.Processes log d₀ today d none es₀ → today.upTo (w.moment start).today →
          r.entries = es₀ ∧ Persistent w r.entries deeds c log := by
  obtain ⟨r, hreplay, rfl⟩ := opened_eq_ok opens
  have hkept := Kept.of_trail (.first w log r.entries d₁ start) trail
  refine ⟨r, hreplay, hkept.consistent,
    fun d₀ here base today es₀ site writes processes hdate => ?_⟩
  have hbefore := processes.recoverable site.begins site.forever
  obtain ⟨r', d', hrun, hentries, -⟩ := hbefore.run_replay site.begins now
  rw [hreplay] at hrun
  cases hrun
  have hopened := hbefore.opened site.begins opens
  rw [← hentries] at hopened
  have hfirst : OnDisk log d₀ here base w r.entries
      ⟨start, .ofStore ⟨log, .ofEntries r.entries⟩ d₁, []⟩ := hopened.mono hdate
  exact ⟨hentries, hkept.persistent site (hfirst.of_trail site writes trail)⟩

/-- The moments of one day. -/
def sampleMoments (t : Nat) : Moment := Log.sampleMoment (t / 1000 : Nat)

/-- A store that has just been opened in an empty directory. -/
def sampleService (retention : Span) : Crowd StoreService Visit :=
  ⟨0, .ofStore ⟨.sample retention, .ofEntries []⟩ ⟨.empty⟩, []⟩

theorem opened_sample (retention : Span) : (Store.opened (.sample retention)).run.run 0 ⟨.empty⟩
    = (.ok ⟨.sample retention, .ofEntries []⟩, ⟨.empty⟩) :=
  Store.run_opened_empty (Log.begins_sample retention) 0

/-- A task is created. Its line is written, and a read that comes before the index is changed does
    not find the task. -/
theorem readers_see_lines_but_last : ∃ deeds c,
    Crowd.Trail (visiting (.calm Log.IsWriting sampleMoments)) Crowd.anyTime Visit.IsCall
      (sampleService .zero) deeds c ∧
      c.tasks[1]? = some (.arriving (.read [1])) ∧ c.shared.store.get [1] = [] ∧
      Consistent (.calm Log.IsWriting sampleMoments) [] deeds c ∧
      Persistent (.calm Log.IsWriting sampleMoments) [] deeds c (.sample .zero) ∧
      (Fortune.calm Log.IsWriting sampleMoments).entries [] deeds ≠ [] := by
  have hplay : (((sampleService .zero).call (.arriving (.create ["."]))).play?
      (visiting (.calm Log.IsWriting sampleMoments)) [0, 0, 0]).any (fun c =>
        decide (c.shared.store.get [1] = [] ∧ c.tasks.length = 1) &&
          ((Log.sample .zero).replay.run.run 0 c.shared.disk).1.toOption.any
            (!·.entries.isEmpty)) = true := by
    decide +kernel
  obtain ⟨c, hc, hlooks⟩ := (Option.any_eq_true _ _).1 hplay
  obtain ⟨hget, hline⟩ := Bool.and_eq_true_iff.1 hlooks
  obtain ⟨hget, hone⟩ := of_decide_eq_true hget
  have called : Crowd.Run (visiting (.calm Log.IsWriting sampleMoments)) Crowd.anyTime Visit.IsCall
      (sampleService .zero) 0 ((sampleService .zero).call (.arriving (.create ["."]))) :=
    Crowd.Run.begin.call ⟨_, rfl⟩
  obtain ⟨n, run⟩ := called.play? hc
  have asks : Visit.IsCall (.arriving (.read [1])) := ⟨_, rfl⟩
  obtain ⟨deeds, trail⟩ := (run.call asks).trail
  obtain ⟨r, hreplay, hconsistent, hpersistent⟩ :=
    readers_see_lines (.calm Log.IsWriting sampleMoments) (opened_sample .zero) trail
  obtain ⟨hnil, hpersistent⟩ := hpersistent ⟨.empty⟩ [] "tasks.json" (Log.sampleMoment 0).today []
    ⟨Log.begins_sample .zero, rfl, fun t => Log.plain_sampleMoment _,
      fun t => Log.valid_sampleMoment _, fun t u _ => CivilDate.upTo_refl _⟩
    (fun r hr => hr) (.begun _) (CivilDate.upTo_refl _)
  rw [hnil] at hconsistent hpersistent
  refine ⟨deeds, _, trail, ?_, hget, hconsistent, hpersistent, fun hentries => ?_⟩
  · rw [Crowd.call, List.getElem?_append_right (Nat.le_of_eq hone), hone]
    rfl
  · obtain ⟨r, d, hrun, hsame⟩ := hpersistent.replay 0
    have hline : ((Log.sample .zero).replay.run.run 0 c.shared.disk).1.toOption.any
        (!·.entries.isEmpty) = true := hline
    rw [show (Log.sample .zero).replay.run.run 0 c.shared.disk = (.ok r, d) from hrun] at hline
    rw [hentries] at hsame
    simp [Except.toOption, hsame] at hline

/-- The accesses of some kinds fail. -/
def Fortune.without (fails : Disk.Request → Bool) (moment : Nat → Moment) :
    Fortune (fails · = true) where
  moment := moment
  outcome now _ s change := (s.store.log.append (moment now)
    (change.entry (moment now))).run.runWithout fails .noSpace (moment now).seconds s.disk
  ends now _ s change := Disk.Program.ends_runWithout fails .noSpace (moment now).seconds
    (s.store.log.append (moment now) (change.entry (moment now))).run s.disk

/-- Calls made one after the other, each at its time and up to its answer. -/
def serve? (w : Fortune P) :
    List (Nat × StoreCall) → Crowd StoreService Visit → Option (Crowd StoreService Visit)
  | [], c => some c
  | (later, call) :: calls, c =>
    if c.now ≤ later then
      (((c.await later).call (.arriving call)).play? (visiting w)
        (.replicate 4 c.tasks.length)).bind (serve? w calls)
    else none

theorem run_serve? {first c c' : Crowd StoreService Visit} {n : Nat}
    (run : Crowd.Run (visiting w) Crowd.anyTime Visit.IsCall first n c)
    {calls : List (Nat × StoreCall)} (h : serve? w calls c = some c') :
    ∃ n, Crowd.Run (visiting w) Crowd.anyTime Visit.IsCall first n c' := by
  induction calls generalizing n c with
  | nil =>
      cases h
      exact ⟨n, run⟩
  | cons call calls ih =>
      unfold serve? at h
      split at h
      · next hle =>
        obtain ⟨mid, hplay, hrest⟩ := Option.bind_eq_some_iff.1 h
        obtain ⟨m, run⟩ := ((run.await hle trivial).call ⟨_, rfl⟩).play? hplay
        exact ih run hrest
      · cases h

/-- Nobody has the lock, and a replay adds up to other tasks than the index has. -/
def Strays (w : Fortune P) (first : Crowd StoreService Visit) : Prop :=
  ∃ deeds c r, Crowd.Trail (visiting w) Crowd.anyTime Visit.IsCall first deeds c ∧
    (∀ key, c.shared.writer.holds key = false) ∧
    (c.shared.store.log.replay.run.run 0 c.shared.disk).1.toOption = some r ∧
    (c.shared.store.index.tasks ≠ (Index.ofEntries r.entries).tasks ∧
      c.shared.store.index.tasks ≠ (Index.ofEntries r.entries.dropLast).tasks)

theorem Strays.of_serve? {first : Crowd StoreService Visit} (calls : List (Nat × StoreCall))
    (h : (serve? w calls first).any (fun c => decide (c.shared.writer.holders = []) &&
      (c.shared.store.log.replay.run.run 0 c.shared.disk).1.toOption.any fun r =>
        decide (c.shared.store.index.tasks ≠ (Index.ofEntries r.entries).tasks ∧
          c.shared.store.index.tasks ≠ (Index.ofEntries r.entries.dropLast).tasks)) = true) :
    Strays w first := by
  obtain ⟨c, hserve, hlooks⟩ := (Option.any_eq_true _ _).1 h
  obtain ⟨hfree, hreplay⟩ := Bool.and_eq_true_iff.1 hlooks
  obtain ⟨r, hr, hother⟩ := (Option.any_eq_true _ _).1 hreplay
  obtain ⟨n, run⟩ := run_serve? .begin hserve
  obtain ⟨deeds, trail⟩ := run.trail
  refine ⟨deeds, c, r, trail, fun key => ?_, hr, of_decide_eq_true hother⟩
  show c.shared.writer.holders.contains key = false
  rw [of_decide_eq_true hfree]
  rfl

/-- The index strays from the log if segments are removed, if a line that is not acknowledged stays
    in the log, and if dates go back: then segments are read in another order.

    In the first run a task is created, and its result a minute later sets the line of the creation
    aside and removes it. In the second run two lines are written, cannot be synced and are not cut
    off. In the third run a result is written on one day, and the next line on the day before. -/
theorem strays_from_log :
    Strays (.calm Log.IsWriting sampleMoments) (sampleService (.ofSeconds 50)) ∧
      Strays (.without (fun | .sync _ | .truncate .. => true | _ => false) sampleMoments)
        (sampleService .zero) ∧
      Strays (.calm Log.IsWriting fun t =>
        ⟨0, ⟨⟨2024, 1, 2⟩, 0, 0, 0, 0⟩, if t = 0 then ⟨2024, 1, 2⟩ else ⟨2024, 1, 1⟩⟩)
        (sampleService .zero) := by
  refine ⟨.of_serve? [(0, .create ["."]), (60000, .update 1 .empty)] ?_,
    .of_serve? [(0, .create ["."]), (0, .create ["."])] ?_,
    .of_serve? [(0, .create ["."]), (0, .update 1 (.ofList [(".", .available)])),
      (1, .create ["."])] ?_⟩
  · decide +kernel
  · decide +kernel
  · simp only [Log.replay, Log.segments, Log.SegmentFile.ofNames,
      Log.SegmentFile.mergeSort_eq_insertionSort]
    decide +kernel

end Reachability.StoreService
