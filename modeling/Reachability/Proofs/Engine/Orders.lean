import Reachability.Proofs.Engine.Attending
import Reachability.Proofs.Table
import Reachability.Proofs.Trail

set_option autoImplicit false

/-! # What becomes of an order

An order keeps its caller, its tasks and its deadline on its way through the queue, to a worker and
back (`Order.Stands`). Its caller gets only what came of that very order, and time does not pass the
later of its start and its deadline before it has. Orders are taken in the order in which they were
put into the queue (`InLine`). Other tasks may come and go meanwhile. -/

namespace Reachability

/-- What is answered to a question for tasks: by what stands before the store, or by the store. -/
def StoreService.answerTo (front : StoreFront) (s : StoreService) (ids : List TaskId) :
    StoreAnswer :=
  match front.answer (s.receipts.map (·.call)) (.read ids) with
  | some d => d.value
  | none => .ok (.tasks (s.store.get ids))

namespace Engine

open StoreService (Visit Moves)

/-! ## Orders -/

/-- An order for a report. -/
structure Order where
  /-- The task that waits for the report. -/
  caller : TaskKey
  /-- The tasks that the report is to be about. -/
  ids : List TaskId
  /-- When the caller started. -/
  began : Nat
  /-- When the report is no longer wanted. -/
  deadline : Nat

/-- The order as it is in the queue. -/
def Order.job (o : Order) : ReportJob := ⟨o.caller, o.ids, o.deadline⟩

/-- The time that does not pass before the caller has its answer. -/
def Order.latest (o : Order) : Nat := max o.began o.deadline

/-- The order of a caller that starts in a turn. -/
def order? (d : Deed World Activity) : Option Order :=
  match d.task with
  | .report (.fresh ids _ limit) => some ⟨d.key, ids, d.time, ReportCall.deadline d.time limit⟩
  | _ => none

/-- The order that is put into the queue in a turn. -/
def entered? (d : Deed World Activity) : Option ReportJob :=
  match d.task, d.turn.task with
  | .report (.inLine ids deadline), .report (.listening _) => some ⟨d.key, ids, deadline⟩
  | _, _ => none

/-- The order that a worker takes out of the queue in a turn. -/
def taken? (d : Deed World Activity) : Option ReportJob :=
  match d.task with
  | .worker .listening => d.found.reports.jobs.head?
  | _ => none

/-- The orders that callers have started with. -/
def orders (deeds : List (Deed World Activity)) : List Order := deeds.filterMap order?

/-- The orders that were put into the queue, the first one first. -/
def entered (deeds : List (Deed World Activity)) : List ReportJob := deeds.filterMap entered?

/-- The orders that workers took, the first one first. -/
def taken (deeds : List (Deed World Activity)) : List ReportJob := deeds.filterMap taken?

namespace Activity

/-- Whether a task writes reports. -/
def isWorker : Activity → Bool
  | worker _ => true
  | _ => false

/-- The order that a worker sees to. -/
def job? : Activity → Option ReportJob
  | worker (.loading job _) => some job
  | _ => none

/-- Whether a caller has put its order into the queue, or has its answer. -/
def hasOrdered : Activity → Bool
  | report (.listening _) => true
  | report (.finished ..) => true
  | _ => false

end Activity

namespace Activity

theorem isWorker_eq_false {a : Activity} (h : a.isReporting = false) : a.isWorker = false := by
  cases a with
  | worker stage => cases h
  | _ => rfl

theorem job?_eq_none {a : Activity} (h : a.isWorker = false) : a.job? = none := by
  cases a with
  | worker stage => cases h
  | _ => rfl

end Activity

/-- A caller has put its order into the queue, or has its answer. -/
def HasOrdered (c : Crowd World Activity) (key : TaskKey) : Prop :=
  ∃ a, c.tasks[key]? = some a ∧ a.hasOrdered = true

/-- Callers order reports. -/
inductive IsOrder : Activity → Prop where
  | order (ids : List TaskId) (start : Nat) (limit : Int) :
      IsOrder (.report (.fresh ids start limit))

/-- What may come while orders are seen to: orders, and all that leaves reports alone. -/
def Comes (a : Activity) : Prop := IsOrder a ∨ a.isReporting = false

/-- No worker comes. -/
theorem Comes.isWorker_eq_false {a : Activity} (h : Comes a) : a.isWorker = false := by
  rcases h with h | h
  · cases h
    rfl
  · exact Activity.isWorker_eq_false h

section Attends

variable {s : Settings} {now : Nat} {key : TaskKey} {w : World} {a : Activity}
  {t : Turn World Activity}

/-! ## What a turn can change -/

theorem Attends.workers (h : Attends s now key w a t) :
    t.shared.reports.workers = w.reports.workers := by
  cases h with
  | aside before after started reports => rw [reports]
  | _ => rfl

/-- An order comes into the queue only from its caller. -/
theorem Attends.jobs (h : Attends s now key w a t) {job : ReportJob}
    (hjob : job ∈ t.shared.reports.jobs) : job ∈ w.reports.jobs ∨ ∃ ids deadline,
      a = .report (.inLine ids deadline) ∧ job = ⟨key, ids, deadline⟩ ∧
        t.task = .report (.listening deadline) := by
  cases h with
  | aside before after started reports => exact .inl (reports ▸ hjob)
  | drops first late => exact .inl (first ▸ List.mem_cons_of_mem _ hjob)
  | takes first intime => exact .inl (first ▸ List.mem_cons_of_mem _ hjob)
  | enters =>
      rcases List.mem_append.1 hjob with hjob | hjob
      · exact .inl hjob
      · exact .inr ⟨_, _, rfl, List.mem_singleton.1 hjob, rfl⟩
  | _ => exact .inl hjob

/-- An order comes to a worker only out of the queue. -/
theorem Attends.job (h : Attends s now key w a t) {job : ReportJob}
    (hjob : t.task.job? = some job) : a.job? = some job ∨ job ∈ w.reports.jobs := by
  cases h with
  | aside before after started reports =>
      rw [Activity.job?_eq_none (Activity.isWorker_eq_false after)] at hjob
      cases hjob
  | takes first intime =>
      obtain rfl := Option.some.inj hjob
      exact .inr (first ▸ List.mem_cons_self ..)
  | loads going moves => exact .inl hjob
  | _ => cases hjob

theorem Attends.started (h : Attends s now key w a t) :
    ∀ b ∈ t.started, b.isReporting = false := by
  cases h with
  | aside before after started reports => exact started
  | _ => exact List.forall_mem_nil _

theorem Attends.isWorker (h : Attends s now key w a t) : t.task.isWorker = a.isWorker := by
  cases h with
  | aside before after started reports =>
      rw [Activity.isWorker_eq_false before, Activity.isWorker_eq_false after]
  | _ => rfl

/-- An answer comes from a worker that took the order too late, or that has been answered. -/
theorem Attends.replied (h : Attends s now key w a t) {caller : TaskKey}
    {answer : Except Report.Error String}
    (hreply : t.shared.reports.replies.get? caller = some answer) :
    w.reports.replies.get? caller = some answer ∨ ∃ job : ReportJob, job.caller = caller ∧
      ((job ∈ w.reports.jobs ∧ job.deadline ≤ now ∧ answer = .error .cancelled) ∨
        ∃ told, a = .worker (.loading job (.answered told)) ∧ answer = job.result s now told) := by
  have hinsert : ∀ {job : ReportJob} {result : Except Report.Error String},
      (w.reports.replies.insert job.caller result).get? caller = some answer →
      w.reports.replies.get? caller = some answer ∨ (job.caller = caller ∧ answer = result) := by
    intro job result hget
    rw [Table.get?_insert] at hget
    split at hget
    · next hsame => exact .inr ⟨hsame.symm, (Option.some.inj hget).symm⟩
    · exact .inl hget
  cases h with
  | aside before after started reports => exact .inl (reports ▸ hreply)
  | @drops job rest first late =>
      rcases hinsert hreply with hold | ⟨hcaller, hanswer⟩
      · exact .inl hold
      · exact .inr ⟨job, hcaller, .inl ⟨first ▸ List.mem_cons_self .., late, hanswer⟩⟩
  | @replies job told =>
      rcases hinsert hreply with hold | ⟨hcaller, hanswer⟩
      · exact .inl hold
      · exact .inr ⟨job, hcaller, .inr ⟨told, rfl, hanswer⟩⟩
  | _ => exact .inl hreply

theorem Attends.hasOrdered (h : Attends s now key w a t) (ha : a.hasOrdered = true) :
    t.task.hasOrdered = true := by
  cases h with
  | aside before after started reports =>
      cases a with
      | report stage => cases before
      | _ => cases ha
  | hears there => rfl
  | leaves late => rfl
  | _ => cases ha

/-- What was in the queue and what is put into it is what is taken and what remains. -/
theorem Attends.queue (h : Attends s now key w a t) :
    w.reports.jobs ++ (entered? ⟨now, key, w, a, t⟩).toList =
      (taken? ⟨now, key, w, a, t⟩).toList ++ t.shared.reports.jobs := by
  cases h with
  | aside before after started reports =>
      rw [reports]
      cases a with
      | worker stage => cases before
      | report stage => cases before
      | _ => exact List.append_nil _
  | @drops job rest first late =>
      show w.reports.jobs ++ [] = w.reports.jobs.head?.toList ++ rest
      rw [first]
      exact List.append_nil _
  | @takes job rest first intime =>
      show w.reports.jobs ++ [] = w.reports.jobs.head?.toList ++ rest
      rw [first]
      exact List.append_nil _
  | enters => rfl
  | _ => exact List.append_nil _

/-- A caller that starts waits for a place. -/
theorem Attends.order {o : Order} (h : Attends s now key w a t)
    (ho : order? ⟨now, key, w, a, t⟩ = some o) :
    o.caller = key ∧ o.began = now ∧ a.hasOrdered = false ∧
      t.task = .report (.inLine o.ids o.deadline) ∧ t.shared.reports.jobs = w.reports.jobs := by
  cases h with
  | aside before after started reports =>
      cases a with
      | report stage => cases before
      | _ => cases ho
  | begins =>
      cases ho
      exact ⟨rfl, rfl, rfl, rfl, rfl⟩
  | _ => cases ho

end Attends

/-! ## The queue is open -/

section Attended

variable {s : Settings} {c : Crowd World Activity} {key other : TaskKey} {a : Activity}
  {t : Turn World Activity}

theorem HasOrdered.after (h : HasOrdered c other) (attends : Attends s c.now key c.shared a t)
    (hkey : c.tasks[key]? = some a) : HasOrdered (c.after key t) other := by
  obtain ⟨b, hb, hordered⟩ := h
  by_cases hne : other = key
  · subst hne
    obtain rfl := Option.some.inj (hb.symm.trans hkey)
    exact ⟨t.task, Crowd.getElem?_after_self hkey, attends.hasOrdered hordered⟩
  · exact ⟨b, Crowd.getElem?_after_of_ne hne hb, hordered⟩

theorem HasOrdered.call (h : HasOrdered c other) : HasOrdered (c.call a) other := by
  obtain ⟨b, hb, hordered⟩ := h
  exact ⟨b, Crowd.getElem?_call_of_some hb, hordered⟩

/-- The queue is open, and all orders on their way, and all answers, are for callers that have put
    their orders into the queue. -/
structure Attended (c : Crowd World Activity) : Prop where
  isOpen : c.shared.reports.isClosed = false
  queued : ∀ job ∈ c.shared.reports.jobs, HasOrdered c job.caller
  handled : ∀ (key : TaskKey) a, c.tasks[key]? = some a → ∀ job, a.job? = some job →
    HasOrdered c job.caller
  replied : ∀ key answer, c.shared.reports.replies.get? key = some answer → HasOrdered c key

namespace Attended

theorem not_hasOrdered (hkey : c.tasks[key]? = some a) (ha : a.hasOrdered = false) :
    ¬ HasOrdered c key := by
  rintro ⟨b, hb, hordered⟩
  obtain rfl := Option.some.inj (hb.symm.trans hkey)
  rw [ha] at hordered
  cases hordered

theorem after (h : Attended c) (attends : Attends s c.now key c.shared a t)
    (hkey : c.tasks[key]? = some a) : Attended (c.after key t) where
  isOpen := by
    show (t.shared.reports.workers == 0) = false
    rw [attends.workers]
    exact h.isOpen
  queued job hjob := by
    rcases attends.jobs hjob with hjob | ⟨ids, deadline, -, rfl, htask⟩
    · exact (h.queued job hjob).after attends hkey
    · exact ⟨_, htask ▸ Crowd.getElem?_after_self hkey, rfl⟩
  handled := by
    refine Crowd.forall_after hkey ?_ ?_ ?_
    · intro k b hb job hjob
      exact (h.handled k b hb job hjob).after attends hkey
    · intro job hjob
      rcases attends.job hjob with hjob | hjob
      · exact (h.handled key a hkey job hjob).after attends hkey
      · exact (h.queued job hjob).after attends hkey
    · intro b hb job hjob
      rw [Activity.job?_eq_none (Activity.isWorker_eq_false (attends.started b hb))] at hjob
      cases hjob
  replied caller answer hreply := by
    rcases attends.replied hreply with hold | ⟨job, rfl, ⟨hjob, -⟩ | ⟨told, rfl, -⟩⟩
    · exact (h.replied caller answer hold).after attends hkey
    · exact (h.queued job hjob).after attends hkey
    · exact (h.handled key _ hkey job rfl).after attends hkey

theorem await (h : Attended c) (later : Nat) : Attended (c.await later) :=
  ⟨h.isOpen, h.queued, h.handled, h.replied⟩

theorem call (h : Attended c) (comes : Comes a) : Attended (c.call a) where
  isOpen := h.isOpen
  queued job hjob := (h.queued job hjob).call
  handled k b hb job hjob := by
    rcases Crowd.getElem?_call hb with ⟨-, rfl⟩ | hb
    · rw [Activity.job?_eq_none comes.isWorker_eq_false] at hjob
      cases hjob
    · exact (h.handled k b hb job hjob).call
  replied k answer hreply := (h.replied k answer hreply).call

/-- Idle workers have no orders. -/
theorem first (clock : ClockKind) (service : StoreService) (workers reportWorkers : Nat) :
    Attended (World.initial clock service workers reportWorkers).crowd where
  isOpen := by
    show (orElse reportWorkers standardReportWorkers == 0) = false
    rw [beq_eq_false_iff_ne, orElse]
    split
    · exact Nat.succ_ne_zero _
    · assumption
  queued := List.forall_mem_nil _
  handled k b hb job hjob := by
    rw [World.eq_idle_of_crowd hb] at hjob
    cases hjob
  replied k answer hreply := by cases hreply

end Attended

end Attended

/-! ## One order -/

section Order

variable {s : Settings} {deeds deeds' : List (Deed World Activity)} {o : Order}
  {c : Crowd World Activity} {key : TaskKey} {a : Activity} {may : Order → Nat → Nat → Prop}

/-- A worker with an order has asked for its tasks, and this was the answer. -/
def Heard (s : Settings) (deeds : List (Deed World Activity)) (o : Order) (answer : StoreAnswer) :
    Prop :=
  ∃ d ∈ deeds, d.task = .worker (.loading o.job (.arriving (.read o.ids))) ∧
    d.found.service.answerTo s.front o.ids = answer

/-- What the caller of an order may get at a time. -/
inductive Gets (s : Settings) (deeds : List (Deed World Activity)) (o : Order) (time : Nat) :
    Except Report.Error String → Prop where
  | result {answer : StoreAnswer} (told : Heard s deeds o answer) :
      Gets s deeds o time (o.job.result s time answer)
  | late (h : o.deadline ≤ time) : Gets s deeds o time (.error .cancelled)

/-- A question for the tasks of an order. -/
def Order.Asks (s : Settings) (deeds : List (Deed World Activity)) (o : Order) : Visit → Prop
  | .arriving call => call = .read o.ids
  | .delayed answer _ => Heard s deeds o answer
  | .answered answer => Heard s deeds o answer
  | _ => False

/-- An answer is heard as soon as it is given, and no later than it can be. -/
def Order.AtOnce (o : Order) (given heard : Nat) : Prop := given = heard ∧ heard ≤ o.latest

/-- An answer may be heard at any time. -/
def Order.AnyTime (_ : Order) (_ _ : Nat) : Prop := True

/-- How far the caller of an order has come, given when an answer may be heard. -/
def Order.Calls (s : Settings) (may : Order → Nat → Nat → Prop)
    (deeds : List (Deed World Activity)) (o : Order) (c : Crowd World Activity) : ReportCall → Prop
  | .fresh .. => False
  | .inLine ids deadline => ids = o.ids ∧ deadline = o.deadline ∧ may o c.now c.now
  | .listening deadline => deadline = o.deadline ∧ may o c.now c.now ∧
    ∀ answer, c.shared.reports.replies.get? o.caller = some answer →
      ∃ given, may o given c.now ∧ Gets s deeds o given answer
  | .finished answer time => ∃ given, may o given time ∧ Gets s deeds o given answer

/-- An order is what it was, wherever it is. -/
structure Order.Stands (s : Settings) (may : Order → Nat → Nat → Prop)
    (deeds : List (Deed World Activity)) (o : Order) (c : Crowd World Activity) : Prop where
  caller : ∃ stage, c.tasks[o.caller]? = some (.report stage) ∧ o.Calls s may deeds c stage
  queued : ∀ job ∈ c.shared.reports.jobs, job.caller = o.caller → job = o.job
  handled : ∀ (key : TaskKey) job visit, c.tasks[key]? = some (.worker (.loading job visit)) →
    job.caller = o.caller → job = o.job ∧ o.Asks s deeds visit

theorem Heard.mono {answer : StoreAnswer} (h : Heard s deeds o answer) (hsub : deeds ⊆ deeds') :
    Heard s deeds' o answer := by
  obtain ⟨d, hd, htask, hanswer⟩ := h
  exact ⟨d, hsub hd, htask, hanswer⟩

theorem Gets.mono {time : Nat} {answer : Except Report.Error String}
    (h : Gets s deeds o time answer) (hsub : deeds ⊆ deeds') : Gets s deeds' o time answer := by
  cases h with
  | result told => exact .result (told.mono hsub)
  | late h => exact .late h

theorem Order.Asks.mono {visit : Visit} (h : o.Asks s deeds visit) (hsub : deeds ⊆ deeds') :
    o.Asks s deeds' visit := by
  cases visit with
  | arriving call => exact h
  | delayed answer finish => exact Heard.mono h hsub
  | answered answer => exact Heard.mono h hsub
  | _ => exact h.elim

/-- A question goes on to what is answered when it is asked. -/
theorem Order.Asks.step {visit visit' : Visit} {service : StoreService}
    (h : o.Asks s deeds visit)
    (moves : Moves s.front (s.moment c.now) c.now key c.shared.service visit service visit') :
    o.Asks s (deeds ++ [c.deed (process s) key (.worker (.loading o.job visit))]) visit' := by
  have hnow : ∀ {answer : StoreAnswer}, visit = .arriving (.read o.ids) →
      c.shared.service.answerTo s.front o.ids = answer →
      Heard s (deeds ++ [c.deed (process s) key (.worker (.loading o.job visit))]) o answer := by
    rintro answer rfl hanswer
    exact ⟨_, List.mem_append_right _ (List.mem_singleton_self _), rfl, hanswer⟩
  cases moves with
  | refused before =>
      obtain rfl : _ = StoreCall.read o.ids := h
      refine hnow rfl ?_
      rw [StoreService.answerTo, before]
  | looked through =>
      cases h
      refine hnow rfl ?_
      rw [StoreService.answerTo, through]
  | admitted through changes => exact absurd h (changes o.ids)
  | told => exact Heard.mono h (List.subset_append_left ..)
  | ended => exact Heard.mono h (List.subset_append_left ..)
  | _ => exact h.elim

namespace Order.Stands

/-- An answer that has come for the caller is one that it may get. -/
theorem gets (h : o.Stands s may deeds c)
    (attends : Attends s c.now key c.shared a (a.step s c.now key c.shared))
    (hkey : c.tasks[key]? = some a)
    (now : may o c.now c.now)
    (before : ∀ answer, c.shared.reports.replies.get? o.caller = some answer →
      ∃ given, may o given c.now ∧ Gets s deeds o given answer)
    {answer : Except Report.Error String}
    (hreply : (a.step s c.now key c.shared).shared.reports.replies.get? o.caller = some answer) :
    ∃ given, may o given c.now ∧ Gets s deeds o given answer := by
  rcases attends.replied hreply with hold | ⟨job, hcaller, ⟨hjob, late, rfl⟩ | ⟨told, rfl, rfl⟩⟩
  · exact before answer hold
  · obtain rfl := h.queued job hjob hcaller
    exact ⟨_, now, .late late⟩
  · obtain ⟨rfl, hasks⟩ := h.handled key job _ hkey hcaller
    exact ⟨_, now, .result hasks⟩

theorem turn (h : o.Stands s may deeds c) (attended : Attended c)
    (attends : Attends s c.now key c.shared a (a.step s c.now key c.shared))
    (hkey : c.tasks[key]? = some a) :
    o.Stands s may (deeds ++ [c.deed (process s) key a]) (c.turn (process s) key a) := by
  have hsub : deeds ⊆ deeds ++ [c.deed (process s) key a] := List.subset_append_left ..
  obtain ⟨stage, hstage, hcalls⟩ := h.caller
  refine ⟨?_, fun job hjob hcaller => ?_, fun k job visit hk hcaller => ?_⟩
  · by_cases hne : o.caller = key
    · -- It is the caller's own turn.
      rw [hne, hkey] at hstage
      obtain rfl := Option.some.inj hstage
      have hself : (c.turn (process s) key (.report stage)).tasks[o.caller]? = some
          (Activity.step s c.now key c.shared (.report stage)).task := by
        rw [hne]
        exact Crowd.getElem?_after_self hkey
      rw [hself]
      generalize hstep : Activity.step s c.now key c.shared (.report stage) = t at attends
      have hshared : (c.turn (process s) key (.report stage)).shared = t.shared :=
        congrArg Turn.shared hstep
      cases attends with
      | aside before after started reports => cases before
      | begins => exact hcalls.elim
      | enters =>
          refine ⟨_, rfl, hcalls.2.1, hcalls.2.2, fun answer hreply => ?_⟩
          rw [hshared, hne] at hreply
          exact absurd (attended.replied key answer hreply) (Attended.not_hasOrdered hkey rfl)
      | givesUp late => exact ⟨_, rfl, _, hcalls.2.2, .late (hcalls.2.1 ▸ late)⟩
      | hears there =>
          obtain ⟨given, hmay, hgets⟩ := hcalls.2.2 _ (hne ▸ there)
          exact ⟨_, rfl, given, hmay, hgets.mono hsub⟩
      | leaves late => exact ⟨_, rfl, _, hcalls.2.1, .late (hcalls.1 ▸ late)⟩
    · refine ⟨stage, Crowd.getElem?_after_of_ne hne hstage, ?_⟩
      cases stage with
      | fresh ids start limit => exact hcalls
      | inLine ids deadline => exact hcalls
      | listening deadline =>
          refine ⟨hcalls.1, hcalls.2.1, fun answer hreply => ?_⟩
          obtain ⟨given, hmay, hgets⟩ := h.gets attends hkey hcalls.2.1 hcalls.2.2 hreply
          exact ⟨given, hmay, hgets.mono hsub⟩
      | finished answer time =>
          obtain ⟨given, hmay, hgets⟩ := hcalls
          exact ⟨given, hmay, hgets.mono hsub⟩
  · rcases attends.jobs hjob with hjob | ⟨ids, deadline, rfl, rfl, -⟩
    · exact h.queued job hjob hcaller
    · obtain rfl : key = o.caller := hcaller
      obtain rfl := Activity.report.inj (Option.some.inj (hstage.symm.trans hkey))
      obtain ⟨rfl, rfl, -⟩ := hcalls
      rfl
  · rcases Crowd.getElem?_after hkey hk with ⟨rfl, htask⟩ | ⟨-, hk⟩ | ⟨i, -, hi⟩
    · have htask' : Activity.worker (.loading job visit) = (a.step s c.now k c.shared).task := htask
      generalize a.step s c.now k c.shared = t at attends htask'
      cases attends with
      | aside before after started reports =>
          rw [← htask'] at after
          cases after
      | takes first intime =>
          cases htask'
          obtain rfl := h.queued job (first ▸ List.mem_cons_self ..) hcaller
          exact ⟨rfl, rfl⟩
      | loads going moves =>
          cases htask'
          obtain ⟨rfl, hasks⟩ := h.handled k job _ hkey hcaller
          exact ⟨rfl, hasks.step moves⟩
      | _ => cases htask'
    · obtain ⟨hjob, hasks⟩ := h.handled k job visit hk hcaller
      exact ⟨hjob, hasks.mono hsub⟩
    · cases attends.started _ (List.mem_of_getElem? hi)

/-- Time does not pass the latest moment before the caller has its answer: an answer that is there
    is heard before time passes at all. -/
theorem await_urgent (h : o.Stands s Order.AtOnce deeds c) {later : Nat}
    (urgent : Crowd.Urgent (process s) c later) :
    o.Stands s Order.AtOnce deeds (c.await later) := by
  obtain ⟨stage, hstage, hcalls⟩ := h.caller
  have hwaits : ∀ {deadline : Nat} {p : Bool}, Activity.isFinished (.report stage) = false →
      stage.wait c.now o.caller c.shared =
        (if (p || decide (deadline ≤ c.now)) = true then .nothing else .change (some deadline)) →
      p = false ∧ later ≤ deadline := by
    intro deadline p going hwait
    obtain ⟨due, hdue, hle⟩ := urgent o.caller _ hstage going
    have hchange : stage.wait c.now o.caller c.shared = .change due := hdue
    rw [hwait] at hchange
    split at hchange
    · cases hchange
    · next hnot =>
      cases hchange
      rw [Bool.or_eq_true, not_or] at hnot
      exact ⟨Bool.eq_false_iff.2 hnot.1, hle deadline rfl⟩
  refine ⟨⟨stage, hstage, ?_⟩, h.queued, h.handled⟩
  cases stage with
  | fresh ids start limit => exact hcalls
  | inLine ids deadline =>
      obtain ⟨hids, rfl, -⟩ := hcalls
      exact ⟨hids, rfl, rfl, Nat.le_trans (hwaits rfl rfl).2 (Nat.le_max_right ..)⟩
  | listening deadline =>
      obtain ⟨rfl, -, -⟩ := hcalls
      obtain ⟨hnone, hle⟩ := hwaits rfl rfl
      refine ⟨rfl, ⟨rfl, Nat.le_trans hle (Nat.le_max_right ..)⟩, fun answer hreply => ?_⟩
      have hsome : c.shared.reports.replies.contains o.caller = true :=
        Table.contains_iff.2 ⟨answer, hreply⟩
      rw [hsome] at hnone
      cases hnone
  | finished answer time => exact hcalls

/-- Otherwise an answer that is there may be heard later. -/
theorem await_anyTime (h : o.Stands s Order.AnyTime deeds c) (later : Nat) :
    o.Stands s Order.AnyTime deeds (c.await later) := by
  obtain ⟨stage, hstage, hcalls⟩ := h.caller
  refine ⟨⟨stage, hstage, ?_⟩, h.queued, h.handled⟩
  cases stage <;> exact hcalls

theorem call (h : o.Stands s may deeds c) (comes : Comes a) : o.Stands s may deeds (c.call a) := by
  obtain ⟨stage, hstage, hcalls⟩ := h.caller
  refine ⟨⟨stage, Crowd.getElem?_call_of_some hstage, ?_⟩, h.queued, fun k job visit hk => ?_⟩
  · cases stage <;> exact hcalls
  · rcases Crowd.getElem?_call hk with ⟨-, rfl⟩ | hk
    · cases comes.isWorker_eq_false
    · exact h.handled k job visit hk

/-- A caller starts with its order. -/
theorem begins (attended : Attended c)
    (attends : Attends s c.now key c.shared a (a.step s c.now key c.shared))
    (hkey : c.tasks[key]? = some a) (ho : order? (c.deed (process s) key a) = some o)
    (may_now : may o o.began o.began) :
    o.Stands s may (deeds ++ [c.deed (process s) key a]) (c.turn (process s) key a) := by
  obtain ⟨hcaller, hbegan, hfresh, htask, hjobs⟩ := attends.order ho
  have hnot : ¬ HasOrdered c o.caller := hcaller ▸ Attended.not_hasOrdered hkey hfresh
  have hself : (c.turn (process s) key a).tasks[o.caller]? =
      some (.report (.inLine o.ids o.deadline)) := by
    rw [hcaller, ← htask]
    exact Crowd.getElem?_after_self hkey
  refine ⟨⟨_, hself, rfl, rfl, hbegan ▸ may_now⟩, fun job hjob hsame => ?_,
    fun k job visit hk hsame => ?_⟩
  · exact absurd (hsame ▸ attended.queued job (hjobs ▸ hjob)) hnot
  · rcases Crowd.getElem?_after hkey hk with ⟨-, hnow⟩ | ⟨-, hk⟩ | ⟨i, -, hi⟩
    · cases hnow.trans htask
    · exact absurd (hsame ▸ attended.handled k _ hk job rfl) hnot
    · cases attends.started _ (List.mem_of_getElem? hi)

end Order.Stands

end Order

/-! ## First in, first out -/

section Queue

variable {s : Settings} {deeds : List (Deed World Activity)} {c : Crowd World Activity}
  {key : TaskKey} {a : Activity}

/-- Orders are taken in the order in which they came into the queue, and none comes twice. -/
structure FirstInFirstOut (deeds : List (Deed World Activity)) (c : Crowd World Activity) :
    Prop where
  order : entered deeds = taken deeds ++ c.shared.reports.jobs
  once : ((entered deeds).map (·.caller)).Nodup
  past : ∀ job ∈ entered deeds, HasOrdered c job.caller

/-- Who puts an order into the queue has not done so before. -/
theorem eq_of_entered? {d : Deed World Activity} {job : ReportJob} (h : entered? d = some job) :
    job.caller = d.key ∧ d.task.hasOrdered = false ∧ d.turn.task.hasOrdered = true := by
  unfold entered? at h
  split at h
  · next htask hturn =>
    cases h
    rw [htask, hturn]
    exact ⟨rfl, rfl, rfl⟩
  · cases h

theorem FirstInFirstOut.turn (h : FirstInFirstOut deeds c)
    (attends : Attends s c.now key c.shared a (a.step s c.now key c.shared))
    (hkey : c.tasks[key]? = some a) :
    FirstInFirstOut (deeds ++ [c.deed (process s) key a]) (c.turn (process s) key a) := by
  have hentered : entered (deeds ++ [c.deed (process s) key a]) =
      entered deeds ++ (entered? (c.deed (process s) key a)).toList := filterMap_concat ..
  have htaken : taken (deeds ++ [c.deed (process s) key a]) =
      taken deeds ++ (taken? (c.deed (process s) key a)).toList := filterMap_concat ..
  have hnew : ∀ job ∈ (entered? (c.deed (process s) key a)).toList, job.caller = key ∧
      a.hasOrdered = false ∧ (a.step s c.now key c.shared).task.hasOrdered = true :=
    fun job hjob => eq_of_entered? (Option.mem_toList.1 hjob)
  refine ⟨?_, ?_, ?_⟩
  · rw [hentered, htaken, h.order, List.append_assoc, List.append_assoc]
    exact congrArg _ attends.queue
  · rw [hentered, List.map_append]
    refine List.nodup_append.2 ⟨h.once, ?_, fun k hk k' hk' hsame => ?_⟩
    · cases entered? (c.deed (process s) key a) with
      | none => exact .nil
      | some job => exact List.nodup_singleton _
    · obtain ⟨old, hold, rfl⟩ := List.mem_map.1 hk
      obtain ⟨new, hnew', rfl⟩ := List.mem_map.1 hk'
      obtain ⟨hcaller, hnot, -⟩ := hnew new hnew'
      refine Attended.not_hasOrdered hkey hnot ?_
      rw [← hcaller, ← hsame]
      exact h.past old hold
  · intro job hjob
    rw [hentered] at hjob
    rcases List.mem_append.1 hjob with hjob | hjob
    · exact (h.past job hjob).after attends hkey
    · obtain ⟨rfl, -, hordered⟩ := hnew job hjob
      exact ⟨_, Crowd.getElem?_after_self hkey, hordered⟩

end Queue

/-! ## Whole runs -/

section Trail

variable {s : Settings} {pace : Crowd World Activity → Nat → Prop}
  {first c : Crowd World Activity} {deeds : List (Deed World Activity)}

theorem Attended.of_trail (renders : ∀ tasks, s.render tasks ≠ .crash) (start : Attended first)
    (trail : Crowd.Trail (process s) pace Comes first deeds c) : Attended c := by
  induction trail with
  | begin => exact start
  | turn trail can ih => exact ih.after (attends_of_canGo renders ih.isOpen can) can.here
  | await trail le may ih => exact ih.await _
  | call trail may ih => exact ih.call may

/-- All orders that callers have started with stand, if they do so while time passes. -/
theorem Order.Stands.of_trail {may : Order → Nat → Nat → Prop}
    (renders : ∀ tasks, s.render tasks ≠ .crash) (start : Attended first)
    (begins : ∀ o : Order, may o o.began o.began)
    (await : ∀ (o : Order) deeds (c : Crowd World Activity) later, o.Stands s may deeds c →
      pace c later → o.Stands s may deeds (c.await later))
    (trail : Crowd.Trail (process s) pace Comes first deeds c) :
    ∀ o ∈ orders deeds, o.Stands s may deeds c := by
  induction trail with
  | begin => exact List.forall_mem_nil _
  | turn trail can ih =>
      have attended := Attended.of_trail renders start trail
      have attends := attends_of_canGo renders attended.isOpen can
      intro o ho
      rw [orders, filterMap_concat] at ho
      rcases List.mem_append.1 ho with ho | ho
      · exact (ih o ho).turn attended attends can.here
      · exact .begins attended attends can.here (Option.mem_toList.1 ho) (begins o)
  | await trail le may ih => exact fun o ho => await o _ _ _ (ih o ho) may
  | call trail may ih => exact fun o ho => (ih o ho).call may

/-- If time passes only when all wait for it, an answer is heard as soon as it is given. -/
theorem Order.Stands.of_urgent (renders : ∀ tasks, s.render tasks ≠ .crash)
    (start : Attended first)
    (trail : Crowd.Trail (process s) (Crowd.Urgent (process s)) Comes first deeds c) :
    ∀ o ∈ orders deeds, o.Stands s Order.AtOnce deeds c :=
  .of_trail renders start (fun _ => ⟨rfl, Nat.le_max_left ..⟩)
    (fun _ _ _ _ h urgent => h.await_urgent urgent) trail

theorem Order.Stands.of_anyTime (renders : ∀ tasks, s.render tasks ≠ .crash)
    (start : Attended first)
    (trail : Crowd.Trail (process s) pace Comes first deeds c) :
    ∀ o ∈ orders deeds, o.Stands s Order.AnyTime deeds c :=
  .of_trail renders start (fun _ => trivial) (fun _ _ _ later h _ => h.await_anyTime later) trail

theorem FirstInFirstOut.of_trail (renders : ∀ tasks, s.render tasks ≠ .crash)
    (start : Attended first) (empty : first.shared.reports.jobs = [])
    (trail : Crowd.Trail (process s) pace Comes first deeds c) : FirstInFirstOut deeds c := by
  induction trail with
  | begin => exact ⟨empty.symm, .nil, List.forall_mem_nil _⟩
  | turn trail can ih =>
      have attended := Attended.of_trail renders start trail
      exact ih.turn (attends_of_canGo renders attended.isOpen can) can.here
  | await trail le may ih => exact ⟨ih.order, ih.once, ih.past⟩
  | call trail may ih => exact ⟨ih.order, ih.once, fun job hjob => (ih.past job hjob).call⟩

/-- The number of workers stays the same. -/
theorem countP_isWorker (renders : ∀ tasks, s.render tasks ≠ .crash) (start : Attended first)
    (trail : Crowd.Trail (process s) pace Comes first deeds c) :
    c.tasks.countP Activity.isWorker = first.tasks.countP Activity.isWorker := by
  induction trail with
  | begin => rfl
  | turn trail can ih =>
      have attended := Attended.of_trail renders start trail
      have attends := attends_of_canGo renders attended.isOpen can
      exact (Crowd.countP_after _ can.here attends.isWorker fun b hb =>
        Activity.isWorker_eq_false (attends.started b hb)).trans ih
  | await trail le may ih => exact ih
  | @call deeds c a trail may ih =>
      show (c.tasks ++ [a]).countP _ = _
      rw [List.countP_append, List.countP_singleton, may.isWorker_eq_false, ih]
      rfl

end Trail

end Engine

end Reachability
