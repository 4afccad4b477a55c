import Reachability.Proofs.Engine.Orders
import Reachability.Proofs.Engine.Persistence

set_option autoImplicit false

/-! # Batches beside reports

What is true of batches, jobs and the store does not depend on reports: these only ask the store for
tasks. A veil hides who orders reports and who writes them. Seen through it, the turns of all others
are turns of a crowd without reports (`veil_turn`), and those of reports leave nothing but the
receipts of questions (`veil_reports`). So the books, the accounts and the order stay right
(`Veiled.of_trail`). -/

namespace Reachability

namespace StoreService

/-! ## Questions -/

/-- Whether a visit is a question for tasks, or on its way to its answer. -/
def Visit.isReading : Visit → Bool
  | .arriving (.read _) => true
  | .delayed .. => true
  | .answered _ => true
  | _ => false

/-- A question leaves at most its receipt. -/
inductive Reads (s : StoreService) : StoreService → Prop where
  | nothing : Reads s s
  | receipt (time : Nat) (ids : List TaskId) (answer : Option StoreAnswer) :
      Reads s { s with receipts := ⟨time, .read ids, answer⟩ :: s.receipts }

section Reads

variable {front : StoreFront} {moment : Moment} {now : Nat} {key : TaskKey}
  {s s' : StoreService} {visit visit' : Visit}

theorem Moves.reads (h : Moves front moment now key s visit s' visit')
    (reading : visit.isReading = true) : Reads s s' ∧ visit'.isReading = true := by
  cases h with
  | @refused call d before =>
      cases call with
      | read ids => exact ⟨.receipt now ids _, rfl⟩
      | _ => cases reading
  | looked through => exact ⟨.receipt now _ none, rfl⟩
  | @admitted call through changes =>
      cases call with
      | read ids => exact absurd rfl (changes ids)
      | _ => cases reading
  | told => exact ⟨.nothing, rfl⟩
  | ended => exact ⟨.nothing, rfl⟩
  | _ => cases reading

theorem Reads.store (h : Reads s s') : s'.store = s.store := by cases h <;> rfl

theorem Reads.disk (h : Reads s s') : s'.disk = s.disk := by cases h <;> rfl

theorem Reads.writer (h : Reads s s') : s'.writer = s.writer := by cases h <;> rfl

theorem Reads.updatesOf (h : Reads s s') (id : TaskId) : s'.updatesOf id = s.updatesOf id := by
  cases h with
  | nothing => rfl
  | receipt time ids answer => exact updatesOf_cons s _ id

theorem Reads.length_receipts_le (h : Reads s s') : s.receipts.length ≤ s'.receipts.length := by
  cases h with
  | nothing => exact Nat.le_refl _
  | receipt => exact Nat.le_succ _

end Reads

end StoreService

namespace Engine

open StoreService (Visit Site Reads)

/-! ## The veil -/

/-- A task as it is seen through the veil: workers are idle, and who orders a report waits for all
    jobs instead. -/
def Activity.veil : Activity → Activity
  | worker _ => .worker .idle
  | report _ => .drain .fresh
  | a => a

/-- All that tasks share, as it is seen through the veil: no report was ever ordered. -/
def World.veil (w : World) : World := { w with reports := .ofWorkers w.reports.workers }

/-- A crowd as it is seen through the veil. -/
def veil (c : Crowd World Activity) : Crowd World Activity :=
  ⟨c.now, c.shared.veil, c.tasks.map Activity.veil⟩

/-- What callers ask for while reports are ordered, too. -/
def AskedOrOrder (a : Activity) : Prop := Asked a ∨ IsOrder a

/-- Workers only ask the store for tasks. -/
def AllRead (c : Crowd World Activity) : Prop :=
  ∀ (key : TaskKey) job visit, c.tasks[key]? = some (.worker (.loading job visit)) →
    visit.isReading = true

section Veil

variable {s : Settings} {now : Nat} {key : TaskKey} {w : World} {a b : Activity}
  {t : Turn World Activity} {c : Crowd World Activity}

theorem AskedOrOrder.comes (h : AskedOrOrder a) : Comes a := by
  rcases h with h | h
  · cases h <;> exact .inr rfl
  · exact .inl h

/-- All others are seen as they are. -/
theorem Activity.veil_eq (h : a.isReporting = false) : a.veil = a := by
  cases a with
  | worker stage => cases h
  | report stage => cases h
  | _ => rfl

/-- How far a worker, or a caller, has come cannot be seen. -/
theorem Activity.veil_eq_veil (ha : a.isReporting = true) (hb : b.isReporting = true)
    (kind : b.isWorker = a.isWorker) : b.veil = a.veil := by
  cases a with
  | worker stage =>
      cases b with
      | worker stage => rfl
      | report stage => cases kind
      | _ => cases hb
  | report stage =>
      cases b with
      | worker stage => cases kind
      | report stage => rfl
      | _ => cases hb
  | _ => cases ha

theorem getElem?_veil (h : c.tasks[key]? = some a) : (veil c).tasks[key]? = some a.veil :=
  List.getElem?_map.trans (congrArg _ h)

theorem of_veil (h : (veil c).tasks[key]? = some a) (worker : a ≠ .worker .idle)
    (drain : a ≠ .drain .fresh) : c.tasks[key]? = some a := by
  obtain ⟨b, hb, rfl⟩ := Option.map_eq_some_iff.1 (List.getElem?_map.symm.trans h)
  have hseen : b.isReporting = false := by
    cases b with
    | worker stage => exact absurd rfl worker
    | report stage => exact absurd rfl drain
    | _ => rfl
  rw [hb, Activity.veil_eq hseen]

/-- At first there is nothing to hide. -/
theorem veil_first (clock : ClockKind) (service : StoreService) (workers reportWorkers : Nat) :
    veil (World.initial clock service workers reportWorkers).crowd =
      (World.initial clock service workers reportWorkers).crowd := by
  rw [veil, World.crowd, List.map_replicate]
  rfl

theorem veil_call (c : Crowd World Activity) (a : Activity) :
    veil (c.call a) = (veil c).call a.veil := by
  rw [veil, Crowd.call, List.map_append]
  rfl

/-! ## The turns of others -/

theorem wait_veil (h : a.isReporting = false) : a.wait now key w.veil = a.wait now key w := by
  cases a with
  | check parent deadline stage => cases stage <;> rfl
  | batch stage => cases stage <;> rfl
  | retry job stage => cases stage <;> rfl
  | submission job stage => cases stage <;> rfl
  | drain stage => cases stage <;> rfl
  | worker stage => cases h
  | report stage => cases h
  | probe deadline stage => rfl
  | rest stop isOver => rfl

theorem canGo_veil (can : c.CanGo (process s) key a) (h : a.isReporting = false) :
    (veil c).CanGo (process s) key a := by
  refine ⟨?_, can.unfinished, ?_⟩
  · rw [getElem?_veil can.here, Activity.veil_eq h]
  · have hwait : (process s).wait (veil c).now key (veil c).shared a =
        (process s).wait c.now key c.shared a := wait_veil h
    rw [hwait]
    exact can.ready

/-- A turn of another is the same turn behind the veil. -/
theorem veil_turn (attends : Attends s c.now key c.shared a (a.step s c.now key c.shared))
    (h : a.isReporting = false) :
    veil (c.turn (process s) key a) = (veil c).turn (process s) key a := by
  have hstep : a.step s c.now key c.shared.veil =
      withReports (.ofWorkers c.shared.reports.workers) (a.step s c.now key c.shared) :=
    step_reports _ h
  generalize ht : a.step s c.now key c.shared = t at attends hstep
  have hturn : c.turn (process s) key a = c.after key t := congrArg (c.after key) ht
  have hveil : (veil c).turn (process s) key a = (veil c).after key
      (withReports (.ofWorkers c.shared.reports.workers) t) := congrArg ((veil c).after key) hstep
  cases attends with
  | aside before after started reports =>
      have hstarted : t.started.map Activity.veil = t.started :=
        (List.map_congr_left fun b hb => Activity.veil_eq (started b hb)).trans (List.map_id _)
      rw [hturn, hveil, veil, Crowd.after, Crowd.after, World.veil, reports, List.map_append,
        List.map_set, Activity.veil_eq after, hstarted]
      rfl
  | _ => cases h

/-! ## The turns of reports -/

/-- Who sees to reports asks the store for tasks at most. -/
theorem Attends.reads (h : Attends s now key w a t) (reporting : a.isReporting = true)
    (reading : ∀ job visit, a = .worker (.loading job visit) → visit.isReading = true) :
    (∃ service reports, t.shared = { w with service, reports } ∧ Reads w.service service) ∧
      t.task.isReporting = true ∧ t.started = [] ∧
      ∀ job visit, t.task = .worker (.loading job visit) → visit.isReading = true := by
  cases h with
  | aside before after started reports =>
      rw [reporting] at before
      cases before
  | takes first intime =>
      refine ⟨⟨_, _, rfl, .nothing⟩, rfl, rfl, fun job visit htask => ?_⟩
      cases htask
      rfl
  | loads going moves =>
      obtain ⟨hreads, hreading⟩ := moves.reads (reading _ _ rfl)
      refine ⟨⟨_, _, rfl, hreads⟩, rfl, rfl, fun job visit htask => ?_⟩
      cases htask
      exact hreading
  | _ => exact ⟨⟨_, _, rfl, .nothing⟩, rfl, rfl, nofun⟩

/-- Behind the veil, a turn of reports leaves nothing but the receipt of a question. -/
theorem veil_reports (attends : Attends s c.now key c.shared a (a.step s c.now key c.shared))
    (hkey : c.tasks[key]? = some a) (reporting : a.isReporting = true)
    (reading : ∀ job visit, a = .worker (.loading job visit) → visit.isReading = true) :
    ∃ service, Reads c.shared.service service ∧
      (c.turn (process s) key a).shared.service = service ∧
      veil (c.turn (process s) key a) =
        ⟨c.now, { c.shared.veil with service }, (veil c).tasks⟩ := by
  obtain ⟨⟨service, reports, hshared, hreads⟩, hafter, hstarted, -⟩ :=
    attends.reads reporting reading
  have hkind := attends.isWorker
  have hworkers := attends.workers
  generalize ht : a.step s c.now key c.shared = t at hshared hafter hstarted hkind hworkers
  have hturn : c.turn (process s) key a = c.after key t := congrArg (c.after key) ht
  rw [hturn]
  refine ⟨service, hreads, congrArg World.service hshared, ?_⟩
  have hset : (c.tasks.map Activity.veil).set key a.veil = c.tasks.map Activity.veil := by
    obtain ⟨hlt, hsame⟩ := List.getElem?_eq_some_iff.1 (getElem?_veil hkey)
    rw [← hsame]
    exact List.set_getElem_self hlt
  rw [veil, Crowd.after, World.veil, hworkers, hstarted, List.append_nil, List.map_set,
    Activity.veil_eq_veil reporting hafter hkind, hset, hshared]
  rfl

/-- Workers go on to ask for tasks only. -/
theorem AllRead.turn (h : AllRead c)
    (attends : Attends s c.now key c.shared a (a.step s c.now key c.shared))
    (hkey : c.tasks[key]? = some a) : AllRead (c.turn (process s) key a) := by
  intro k job visit hk
  rcases Crowd.getElem?_after hkey hk with ⟨rfl, htask⟩ | ⟨-, hold⟩ | ⟨i, -, hi⟩
  · cases hreporting : a.isReporting with
    | true =>
        have hread : ∀ job visit, a = .worker (.loading job visit) → visit.isReading = true :=
          fun job visit ha => h k job visit (ha ▸ hkey)
        exact (attends.reads hreporting hread).2.2.2 job visit htask.symm
    | false =>
        have hkind := attends.isWorker
        rw [Activity.isWorker_eq_false hreporting] at hkind
        exact absurd (htask.symm ▸ hkind : Activity.isWorker (.worker _) = false) nofun
  · exact h k job visit hold
  · cases attends.started _ (List.mem_of_getElem? hi)

theorem AllRead.call (h : AllRead c) (comes : Comes a) : AllRead (c.call a) := by
  intro k job visit hk
  rcases Crowd.getElem?_call hk with ⟨-, rfl⟩ | hold
  · cases comes.isWorker_eq_false
  · exact h k job visit hold

end Veil

/-! ## What stays right -/

section Veiled

variable {log : Log} {d₀ : Disk} {here : Disk.Place} {base : String} {s : Settings}
  {c : Crowd World Activity} {key : TaskKey} {a : Activity} {published : List Log.Entry}
  {pace : Crowd World Activity → Nat → Prop} {deeds : List (Deed World Activity)}

/-- The receipt of a question does not matter to the books, the accounts and the order. -/
theorem Faithful.reads (h : Faithful log d₀ here base s c published) {service : StoreService}
    (reads : Reads c.shared.service service) :
    Faithful log d₀ here base s ⟨c.now, { c.shared with service }, c.tasks⟩ published where
  sound := by
    obtain ⟨l, ahead, hbooks, hahead⟩ := h.sound.books
    refine ⟨?_, ⟨l, ahead, hbooks.congr (congrArg Store.log reads.store) reads.disk
      (congrArg (·.index.tasks) reads.store), hahead⟩, ?_⟩
    · show StoreService.Guarded service (visitors c)
      rw [StoreService.Guarded, reads.writer]
      exact h.sound.guarded
    · show published.length + service.writer.users.length ≤ service.receipts.length
      rw [reads.writer]
      exact Nat.le_trans h.sound.few reads.length_receipts_le
  kept :=
    { stands := fun k b hb => (h.kept.stands k b hb).congr (fun id _ => reads.updatesOf id)
        fun _ _ => rfl
      single := h.kept.single
      below := fun k id hk => by
        show id < service.store.index.nextId
        rw [reads.store]
        exact h.kept.below k id hk
      unheard := fun id hid => (h.kept.unheard id hid).congr (reads.updatesOf id) rfl }
  ordered := ⟨h.ordered.kinds, h.ordered.quiet, h.ordered.lock, h.ordered.running,
    h.ordered.joining, h.ordered.parents, h.ordered.origins, h.ordered.jobs⟩

/-- The queue is open, workers only ask for tasks, and all else is right. -/
structure Veiled (log : Log) (d₀ : Disk) (here : Disk.Place) (base : String) (s : Settings)
    (c : Crowd World Activity) : Prop where
  attended : Attended c
  reading : AllRead c
  faithful : ∃ published, Faithful log d₀ here base s (veil c) published

namespace Veiled

theorem turn (h : Veiled log d₀ here base s c) (site : Site log d₀ here base s.moment)
    (refuses : s.front.Refuses) (renders : ∀ tasks, s.render tasks ≠ .crash)
    (room : Roomy log s c) (can : c.CanGo (process s) key a) :
    Veiled log d₀ here base s (c.turn (process s) key a) := by
  have attends := attends_of_canGo renders h.attended.isOpen can
  refine ⟨h.attended.after attends can.here, h.reading.turn attends can.here, ?_⟩
  obtain ⟨published, hfaithful⟩ := h.faithful
  cases hreporting : a.isReporting with
  | true =>
      obtain ⟨service, hreads, -, hveil⟩ := veil_reports attends can.here hreporting
        fun job visit ha => h.reading key job visit (ha ▸ can.here)
      rw [hveil]
      exact ⟨published, hfaithful.reads hreads⟩
  | false =>
      rw [veil_turn attends hreporting]
      exact hfaithful.turn site refuses room (canGo_veil can hreporting)

theorem await (h : Veiled log d₀ here base s c) (site : Site log d₀ here base s.moment)
    {later : Nat} (hle : c.now ≤ later) : Veiled log d₀ here base s (c.await later) := by
  obtain ⟨published, hfaithful⟩ := h.faithful
  exact ⟨h.attended.await later, h.reading, published, hfaithful.await site hle⟩

theorem call (h : Veiled log d₀ here base s c) (asked : AskedOrOrder a) :
    Veiled log d₀ here base s (c.call a) := by
  refine ⟨h.attended.call asked.comes, h.reading.call asked.comes, ?_⟩
  obtain ⟨published, hfaithful⟩ := h.faithful
  have hasked : Asked a.veil := by
    rcases asked with hasked | horder
    · cases hasked
      · exact .check ..
      · exact .wait
    · cases horder
      exact .wait
  rw [veil_call]
  exact ⟨published, hfaithful.call hasked⟩

/-- The engine starts so on a store that has just been opened. -/
theorem first (site : Site log d₀ here base s.moment) {clock : ClockKind} {store : Store}
    {disk : Disk} {workers reportWorkers : Nat} {sec : Int}
    (opened : (Store.opened log).run.run sec d₀ = (.ok store, disk)) :
    Veiled log d₀ here base s
      (World.initial clock (.ofStore store disk) workers reportWorkers).crowd where
  attended := .first ..
  reading key job visit hkey := by cases World.eq_idle_of_crowd hkey
  faithful := by
    rw [veil_first]
    exact ⟨[], .first site opened⟩

/-- However the members of the crowd take their turns and callers come, for batches, for jobs or for
    reports, all stays right. -/
theorem of_trail {first : Crowd World Activity} (site : Site log d₀ here base s.moment)
    (refuses : s.front.Refuses) (renders : ∀ tasks, s.render tasks ≠ .crash)
    (start : Veiled log d₀ here base s first)
    (trail : Crowd.Trail (process s) pace AskedOrOrder first deeds c) (room : Roomy log s c) :
    Veiled log d₀ here base s c := by
  -- The room is that of the last crowd, as in `faithful`.
  induction trail with
  | begin => exact start
  | turn trail can ih =>
      have hroom := room.of_le (length_receipts_le_step _)
      exact (ih hroom).turn site refuses renders hroom can
  | await trail le may ih => exact (ih room).await site le
  | call trail may ih => exact (ih room).call may

end Veiled

end Veiled

end Engine

end Reachability
