import Reachability.Proofs.Engine.Checks

set_option autoImplicit false

/-! # The turns of batches and reports

Callers give batches to be checked, wait until all results are stored, or order reports. `Acts`
lists all that a task of such a crowd can do in one turn: go on with a call on the store, do what
the tasks of batches do otherwise (`Plain`), or see to reports (`Reports`). Each turn brings the
crowd nearer to its end (`Acts.effort_lt`); orders in the queue count for the turns that a worker
has with them. -/

namespace Reachability

/-- A front that answers calls at once, if it does, and only to refuse them. -/
structure StoreFront.Instant (front : StoreFront) : Prop where
  refuses : front.Refuses
  atOnce : ∀ calls call d, front.answer calls call = some d → d.delay = some 0

namespace StoreService

/-! ## Calls that create a task, and calls whose answer is there -/

/-- Whether a visit is to create a task with the given links, or has come to nothing. -/
def Visit.Creates (links : List String) : Visit → Prop
  | .arriving call => call = .create links
  | .delayed answer _ => ∃ e, answer = .error e
  | .inLine call => call = .create links
  | .writing change => ∃ task, change = .create task ∧ task.links = links
  | .written change _ => ∃ task, change = .create task ∧ task.links = links
  | .answered answer =>
    (∃ e, answer = .error e) ∨ ∃ task, answer = .ok (.task task) ∧ task.links = links

/-- Whether a visit has not begun. -/
def Visit.isArriving : Visit → Bool
  | .arriving _ => true
  | _ => false

/-- Whether the answer of a visit has come, if that is what it waits for. -/
def Visit.isDue (now : Nat) : Visit → Bool
  | .delayed _ finish => finish.any (· ≤ now)
  | _ => true

section Moves

variable {front : StoreFront} {moment : Moment} {now : Nat} {key : TaskKey}
  {s s' : StoreService} {visit visit' : Visit}

theorem Moves.creates (h : Moves front moment now key s visit s' visit') (refuses : front.Refuses)
    {links : List String} (hcreates : visit.Creates links) : visit'.Creates links := by
  cases h with
  | refused before => exact refuses _ _ _ before
  | looked => cases hcreates
  | admitted => exact hcreates
  | told => exact .inl hcreates
  | reserved =>
      cases hcreates
      exact ⟨_, rfl, rfl⟩
  | exhausted => exact .inl ⟨_, rfl⟩
  | known => cases hcreates
  | unknown => cases hcreates
  | lookedLate => cases hcreates
  | wrote => exact hcreates
  | settled =>
      obtain ⟨task, rfl, hlinks⟩ := hcreates
      exact .inr ⟨task, rfl, hlinks⟩
  | failed => exact .inl ⟨_, rfl⟩
  | ended => exact hcreates

theorem Moves.isDue (h : Moves front moment now key s visit s' visit')
    (instant : front.Instant) (hdue : visit.isDue now = true) : visit'.isDue now = true := by
  cases h with
  | @refused call d before =>
      have hfinish : d.finish now = some now := by
        rw [Delayed.finish, instant.atOnce _ _ _ before]
        rfl
      rw [hfinish]
      exact decide_eq_true (Nat.le_refl now)
  | ended => exact hdue
  | _ => rfl

theorem Visit.isDue_mono (h : visit.isDue now = true) {later : Nat} (hle : now ≤ later) :
    visit.isDue later = true := by
  cases visit with
  | delayed answer finish =>
      obtain ⟨t, rfl, ht⟩ := (Option.any_eq_true _ _).1 h
      exact decide_eq_true (Nat.le_trans (of_decide_eq_true ht) hle)
  | _ => rfl

/-- A visit whose answer is there, and that has the lock if it needs it, can go on. -/
theorem Visit.ready (hdue : visit.isDue now = true)
    (holds : visit.isInside = true → s.writer.holds key = true) :
    visit.wait now key s = .nothing ∨ visit.wait now key s = .disk := by
  cases visit with
  | delayed answer finish => exact .inl (if_pos hdue)
  | inLine call => exact .inl (if_pos (holds rfl))
  | writing change => exact .inr rfl
  | _ => exact .inl rfl

end Moves

end StoreService

namespace Engine

open StoreService (Visit Moves)

/-! ## Who calls on the store -/

namespace Activity

/-- The call on the store that a task is making, as a batch, as a job or for a report. -/
def visiting? : Activity → Option Visit
  | worker (.loading _ visit) => some visit
  | a => a.visit?

/-- The task with its call on the store at another stage. -/
def withVisiting (visit : Visit) : Activity → Activity
  | worker (.loading job _) => worker (.loading job visit)
  | a => a.withVisit visit

/-- Whether callers can ask for such a task, or for one that starts it. -/
def isRequested : Activity → Bool
  | submission .. => false
  | probe .. => false
  | rest .. => false
  | _ => true

/-- Whether a task has to do with reports. -/
def isReporting : Activity → Bool
  | worker _ => true
  | report _ => true
  | _ => false

theorem visiting?_cases {a : Activity} {visit : Visit} (h : a.visiting? = some visit) :
    (∃ job, a = .worker (.loading job visit)) ∨
      a.visit? = some visit ∧ ∀ visit', a.withVisiting visit' = a.withVisit visit' := by
  unfold visiting? at h
  split at h
  · cases h
    exact .inl ⟨_, rfl⟩
  · next hnot =>
    refine .inr ⟨h, fun visit' => ?_⟩
    unfold withVisiting
    split
    · exact absurd rfl (hnot _ _)
    · rfl

theorem visiting?_of_visit? {a : Activity} {visit : Visit} (h : a.visit? = some visit) :
    a.visiting? = some visit ∧ ∀ visit', a.withVisiting visit' = a.withVisit visit' := by
  cases calls_of_visit? h <;> exact ⟨rfl, fun _ => rfl⟩

theorem visiting?_withVisiting {a : Activity} {visit : Visit} (h : a.visiting? = some visit)
    (visit' : Visit) : (a.withVisiting visit').visiting? = some visit' := by
  rcases visiting?_cases h with ⟨job, rfl⟩ | ⟨hvisit, hwith⟩
  · rfl
  · rw [hwith]
    exact (visiting?_of_visit? (visit?_withVisit hvisit visit')).1

theorem wait_of_visiting {a : Activity} {visit : Visit} (h : a.visiting? = some visit) (now : Nat)
    (key : TaskKey) (w : World) : a.wait now key w = visit.wait now key w.service := by
  rcases visiting?_cases h with ⟨job, rfl⟩ | ⟨hvisit, -⟩
  · rfl
  · exact wait_of_visit hvisit

theorem isFinished_of_visiting {a : Activity} {visit : Visit} (h : a.visiting? = some visit) :
    a.isFinished = false := by
  rcases visiting?_cases h with ⟨job, rfl⟩ | ⟨hvisit, -⟩
  · rfl
  · cases calls_of_visit? hvisit <;> rfl

end Activity

/-! ## How many turns are left -/

/-- How many turns a worker can still have with the order that it has taken. -/
def ReportWorker.effort : ReportWorker → Nat
  | .idle => 2
  | .inLine => 1
  | .listening => 0
  | .loading _ visit => visit.rank + 3
  | .crashed => 0

/-- How many turns a caller that orders a report can still have, with those for its order. -/
def ReportCall.effort : ReportCall → Nat
  | .fresh .. => 11
  | .inLine .. => 10
  | .listening _ => 1
  | .finished .. => 0

/-- How many turns a task can still have, with all that it may yet start. -/
def Activity.effort (policy : RetryPolicy) : Activity → Nat
  | worker stage => stage.effort
  | report stage => stage.effort
  | a => a.rank policy

/-- How many turns there can still be, unless callers come. -/
def effort (policy : RetryPolicy) (c : Crowd World Activity) : Nat :=
  c.total (Activity.effort policy) + 8 * c.shared.reports.jobs.length

/-! ## The turns -/

/-- A turn that only sees to reports. -/
structure Reports (w : World) (a : Activity) (t : Turn World Activity) : Prop where
  shared : ∃ reports, t.shared = { w with reports }
  started : t.started = []
  before : a.isReporting = true
  after : t.task.isReporting = true
  told : a.visiting?.all Visit.isAnswered = true
  arrives : t.task.visiting?.all Visit.isArriving = true
  nearer : ∀ policy, t.task.effort policy + 8 * t.shared.reports.jobs.length
    < a.effort policy + 8 * w.reports.jobs.length

/-- All that a task can do in a turn. -/
inductive Acts (s : Settings) (now : Nat) (key : TaskKey) (w : World) :
    Activity → Turn World Activity → Prop where
  | visits {a : Activity} {visit visit' : Visit} {service : StoreService}
      (visiting : a.visiting? = some visit) (going : visit.isAnswered = false)
      (ready : ∀ call, visit = .inLine call → w.service.writer.holds key = true)
      (moves : Moves s.front (s.moment now) now key w.service visit service visit') :
      Acts s now key w a ⟨{ w with service }, a.withVisiting visit', []⟩
  | plain {a : Activity} {t : Turn World Activity} (h : Plain s now key w a t) :
      Acts s now key w a t
  | reports {a : Activity} {t : Turn World Activity} (h : Reports w a t) : Acts s now key w a t

section Acts

variable {s : Settings} {now : Nat} {key : TaskKey} {w : World} {a : Activity}
  {t : Turn World Activity}

theorem Turns.acts (h : Turns s now key w a t) : Acts s now key w a t := by
  cases h with
  | visits visiting going ready moves =>
      rw [← (Activity.visiting?_of_visit? visiting).2]
      exact .visits (Activity.visiting?_of_visit? visiting).1 going ready moves
  | plain h => exact .plain h

/-! ## A turn is one of them -/

section CanGo

variable {c : Crowd World Activity}

theorem acts_loading {job : ReportJob} {visit : Visit}
    (can : c.CanGo (process s) key (.worker (.loading job visit)))
    (going : visit.isAnswered = false) :
    Acts s c.now key c.shared (.worker (.loading job visit))
      (Activity.step s c.now key c.shared (.worker (.loading job visit))) := by
  have hstep : Activity.step s c.now key c.shared (.worker (.loading job visit)) =
      ⟨{ c.shared with
          service := (c.shared.service.step s.front (s.moment c.now) c.now key visit).1 },
        .worker (.loading job (c.shared.service.step s.front (s.moment c.now) c.now key visit).2),
        []⟩ := by
    cases visit <;> first | rfl | cases going
  rw [hstep]
  refine .visits (a := .worker (.loading job visit)) rfl going (fun call hcall => ?_)
    (StoreService.moves_step ..)
  subst hcall
  exact can.of_wait rfl

theorem length_crash_le (q : ReportQueue) (caller : TaskKey) :
    (q.crash caller).jobs.length ≤ q.jobs.length := by
  simp only [ReportQueue.crash]
  split
  · exact Nat.zero_le _
  · exact Nat.le_refl _

/-- Writing a report leaves a worker idle, or crashed. -/
theorem reports_render (job : ReportJob) (tasks : List Task) (answer : StoreAnswer) :
    Reports w (.worker (.loading job (.answered answer)))
      ⟨(ReportWorker.render s now w job tasks).1,
        .worker (ReportWorker.render s now w job tasks).2, []⟩ := by
  have hreply : ∀ result, Reports w (.worker (.loading job (.answered answer)))
      ⟨(ReportWorker.reply w job result).1, .worker (ReportWorker.reply w job result).2, []⟩ := by
    intro result
    exact ⟨⟨_, rfl⟩, rfl, rfl, rfl, rfl, rfl,
      fun policy => Nat.add_lt_add_right (Nat.lt_succ_self 2) _⟩
  unfold ReportWorker.render
  split
  · exact hreply _
  · split
    · exact hreply _
    · exact hreply _
    · refine ⟨⟨_, rfl⟩, rfl, rfl, rfl, rfl, rfl, fun policy => ?_⟩
      have hle := length_crash_le w.reports job.caller
      show 0 + 8 * (w.reports.crash job.caller).jobs.length < 0 + 3 + 8 * w.reports.jobs.length
      omega

theorem acts_worker {stage : ReportWorker} (can : c.CanGo (process s) key (.worker stage)) :
    Acts s c.now key c.shared (.worker stage)
      (Activity.step s c.now key c.shared (.worker stage)) := by
  cases stage with
  | idle =>
      exact .reports ⟨⟨_, rfl⟩, rfl, rfl, rfl, rfl, rfl,
        fun policy => Nat.add_lt_add_right (Nat.lt_succ_self 1) _⟩
  | inLine =>
      exact .reports ⟨⟨_, rfl⟩, rfl, rfl, rfl, rfl, rfl,
        fun policy => Nat.add_lt_add_right Nat.one_pos _⟩
  | listening =>
      cases hjobs : c.shared.reports.jobs with
      | nil => exact absurd hjobs (jobs_ne_nil_of_canGo can)
      | cons job rest =>
          -- The order leaves the queue: its eight turns are the worker's.
          refine .reports ?_
          simp only [Activity.step, ReportWorker.step, ReportWorker.take, hjobs]
          split
          · refine ⟨⟨_, rfl⟩, rfl, rfl, rfl, rfl, rfl, fun policy => ?_⟩
            show 2 + 8 * rest.length < 0 + 8 * c.shared.reports.jobs.length
            rw [hjobs, List.length_cons]
            omega
          · refine ⟨⟨_, rfl⟩, rfl, rfl, rfl, rfl, rfl, fun policy => ?_⟩
            show 4 + 3 + 8 * rest.length < 0 + 8 * c.shared.reports.jobs.length
            rw [hjobs, List.length_cons]
            omega
  | loading job visit =>
      cases visit with
      | answered answer =>
          refine .reports ?_
          cases answer with
          | error e =>
              exact ⟨⟨_, rfl⟩, rfl, rfl, rfl, rfl, rfl,
                fun policy => Nat.add_lt_add_right (Nat.lt_succ_self 2) _⟩
          | ok reply =>
              cases reply with
              | tasks tasks => exact reports_render job tasks _
              | task task => exact reports_render job [] _
              | stored => exact reports_render job [] _
      | _ => exact acts_loading can rfl
  | crashed => cases can.unfinished

theorem reports_call {stage : ReportCall} (going : stage.effort ≠ 0) :
    Reports w (.report stage) (Activity.step s now key w (.report stage)) := by
  have hend : ∀ {reports : ReportQueue} {answer},
      reports.jobs = w.reports.jobs → Reports w (.report stage)
        ⟨{ w with reports }, .report (.finished answer now), []⟩ := by
    intro reports answer hjobs
    refine ⟨⟨_, rfl⟩, rfl, rfl, rfl, rfl, rfl, fun policy => ?_⟩
    show 0 + 8 * reports.jobs.length < stage.effort + 8 * w.reports.jobs.length
    rw [hjobs]
    omega
  cases stage with
  | fresh ids start limit =>
      simp only [Activity.step, ReportCall.step]
      split
      · exact hend rfl
      · exact ⟨⟨_, rfl⟩, rfl, rfl, rfl, rfl, rfl,
          fun policy => Nat.add_lt_add_right (Nat.lt_succ_self 10) _⟩
  | inLine ids deadline =>
      simp only [Activity.step, ReportCall.step]
      split
      · exact hend rfl
      · split
        · refine ⟨⟨_, rfl⟩, rfl, rfl, rfl, rfl, rfl, fun policy => ?_⟩
          show 1 + 8 * (w.reports.jobs ++ [_]).length < 10 + 8 * w.reports.jobs.length
          rw [List.length_append, List.length_singleton]
          omega
        · exact hend rfl
  | listening deadline =>
      simp only [Activity.step, ReportCall.step]
      split <;> exact hend rfl
  | finished answer time => exact absurd rfl going

/-- What a task of such a crowd does when it can go on. -/
theorem acts_of_canGo (can : c.CanGo (process s) key a) (kind : a.isRequested = true)
    (creates : ∀ caller visit, a = .batch (.creating caller visit) →
      ∃ links, visit.Creates links) :
    Acts s c.now key c.shared a (a.step s c.now key c.shared) := by
  cases a with
  | check parent deadline stage => exact .plain (plain_check can)
  | batch stage =>
      refine (turns_batch can fun caller reply hstage => ?_).acts
      obtain ⟨links, hcreates⟩ := creates caller _ (congrArg _ hstage)
      rcases hcreates with ⟨e, he⟩ | ⟨task, hreply, -⟩
      · cases he
      · exact ⟨task, Except.ok.inj hreply⟩
  | retry job stage => exact (turns_retry can).acts
  | drain stage => exact .plain (plain_drain can)
  | worker stage => exact acts_worker can
  | report stage =>
      refine .reports (reports_call ?_)
      cases stage with
      | finished answer time => cases can.unfinished
      | _ => exact Nat.succ_ne_zero _
  | _ => cases kind

end CanGo

/-! ## The end comes nearer -/

theorem Activity.rank_le_effort (policy : RetryPolicy) (a : Activity) :
    a.rank policy ≤ a.effort policy := by
  cases a with
  | worker stage => cases stage <;> first | exact Nat.le_refl _ | exact Nat.zero_le _
  | report stage => exact Nat.zero_le _
  | _ => exact Nat.le_refl _

theorem Plain.effort_eq (h : Plain s now key w a t) (policy : RetryPolicy) :
    t.task.effort policy = t.task.rank policy ∧
      ∀ b ∈ t.started, b.effort policy = b.rank policy := by
  cases h with
  | launched deadline =>
      refine ⟨rfl, fun b hb => ?_⟩
      obtain ⟨link, -, rfl⟩ := List.mem_map.1 hb
      rfl
  | submitted ready =>
      refine ⟨rfl, fun b hb => ?_⟩
      obtain rfl := List.mem_singleton.1 hb
      rfl
  | @worked stage stage' receiver kind nearer =>
      refine ⟨?_, List.forall_mem_nil _⟩
      cases stage' <;> first | rfl | cases kind
  | _ => exact ⟨rfl, List.forall_mem_nil _⟩

theorem Acts.effort_lt (h : Acts s now key w a t) (refuses : s.front.Refuses) :
    t.task.effort s.retry + (t.started.map (Activity.effort s.retry)).sum
        + 8 * t.shared.reports.jobs.length
      < a.effort s.retry + 8 * w.reports.jobs.length := by
  cases h with
  | @visits visit visit' service visiting going ready moves =>
      refine Nat.add_lt_add_right ?_ (8 * w.reports.jobs.length)
      rcases Activity.visiting?_cases visiting with ⟨job, rfl⟩ | ⟨hvisit, hwith⟩
      · exact Nat.add_lt_add_right (moves.rank_lt going) 3
      · have hlt := (Turns.visits hvisit going ready moves).rank_lt refuses
        have hsame : (a.withVisit visit').effort s.retry = (a.withVisit visit').rank s.retry := by
          cases Activity.calls_of_visit? hvisit <;> rfl
        rw [hwith, hsame]
        exact Nat.lt_of_lt_of_le hlt (a.rank_le_effort s.retry)
  | plain h =>
      obtain ⟨htask, hstarted⟩ := h.effort_eq s.retry
      have hjobs : t.shared.reports.jobs = w.reports.jobs := (Turns.plain h).quiet
      have hlt := h.rank_lt
      have hle := a.rank_le_effort s.retry
      rw [htask, List.map_congr_left hstarted, hjobs]
      omega
  | reports h =>
      rw [h.started]
      exact h.nearer s.retry

end Acts

end Engine

end Reachability
