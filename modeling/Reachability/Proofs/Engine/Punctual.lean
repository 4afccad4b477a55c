import Reachability.Proofs.Engine.Orders
import Reachability.Proofs.Engine.Steady

set_option autoImplicit false

/-! # Reports in time

Whatever the store does with the questions for tasks, and if it never answers them: a caller that
orders a report gets one answer, by the later of its start and of its deadline
(`reported_in_time`). -/

namespace Reachability.Engine

open StoreService (Visit)

/-- The caller of a report got its answer at a time. -/
def Reported (c : Crowd World Activity) (key : TaskKey) (answer : Except Report.Error String)
    (time : Nat) : Prop :=
  c.tasks[key]? = some (.report (.finished answer time))

/-- All callers of reports have got their answers. -/
def AllReported (c : Crowd World Activity) : Prop :=
  ∀ (key : TaskKey) stage, c.tasks[key]? = some (.report stage) →
    ∃ answer time, stage = .finished answer time

/-- There are only workers and callers of reports. -/
def OnlyReports (c : Crowd World Activity) : Prop :=
  ∀ (key : TaskKey) a, c.tasks[key]? = some a → a.isReporting = true

section Ends

variable {s : Settings} {now : Nat} {key : TaskKey} {w : World} {a : Activity}
  {t : Turn World Activity} {c : Crowd World Activity}

/-! ## The answers come -/

/-- Those who see to reports start nobody, and each turn of theirs brings them nearer to the end. -/
theorem Attends.effort_lt (h : Attends s now key w a t) (reporting : a.isReporting = true)
    (policy : RetryPolicy) : t.task.isReporting = true ∧ t.started = [] ∧
      t.task.effort policy + 8 * t.shared.reports.jobs.length
        < a.effort policy + 8 * w.reports.jobs.length := by
  cases h with
  | aside before after started reports =>
      rw [reporting] at before
      cases before
  | asks => exact ⟨rfl, rfl, Nat.add_lt_add_right (Nat.lt_succ_self 1) _⟩
  | listens => exact ⟨rfl, rfl, Nat.add_lt_add_right Nat.one_pos _⟩
  | @drops job rest first late =>
      refine ⟨rfl, rfl, ?_⟩
      show 2 + 8 * rest.length < 0 + 8 * w.reports.jobs.length
      rw [first, List.length_cons]
      omega
  | @takes job rest first intime =>
      refine ⟨rfl, rfl, ?_⟩
      show 4 + 3 + 8 * rest.length < 0 + 8 * w.reports.jobs.length
      rw [first, List.length_cons]
      omega
  | loads going moves =>
      refine ⟨rfl, rfl, Nat.add_lt_add_right ?_ (8 * w.reports.jobs.length)⟩
      exact Nat.add_lt_add_right (moves.rank_lt going) 3
  | replies => exact ⟨rfl, rfl, Nat.add_lt_add_right (Nat.lt_succ_self 2) _⟩
  | begins => exact ⟨rfl, rfl, Nat.add_lt_add_right (Nat.lt_succ_self 10) _⟩
  | enters =>
      refine ⟨rfl, rfl, ?_⟩
      show 1 + 8 * (w.reports.jobs ++ [_]).length < 10 + 8 * w.reports.jobs.length
      rw [List.length_append, List.length_singleton]
      omega
  | givesUp late => exact ⟨rfl, rfl, Nat.add_lt_add_right (Nat.succ_pos 9) _⟩
  | hears there => exact ⟨rfl, rfl, Nat.add_lt_add_right Nat.one_pos _⟩
  | leaves late => exact ⟨rfl, rfl, Nat.add_lt_add_right Nat.one_pos _⟩

/-- A turn in such a crowd. -/
theorem OnlyReports.turn (h : OnlyReports c)
    (attends : Attends s c.now key c.shared a (a.step s c.now key c.shared))
    (hkey : c.tasks[key]? = some a) (policy : RetryPolicy) :
    OnlyReports (c.turn (process s) key a) ∧
      effort policy (c.turn (process s) key a) < effort policy c := by
  obtain ⟨hafter, hstarted, hlt⟩ := attends.effort_lt (h key a hkey) policy
  constructor
  · refine Crowd.forall_after hkey h hafter fun b hb => ?_
    have hnone : b ∈ (a.step s c.now key c.shared).started := hb
    rw [hstarted] at hnone
    cases hnone
  · have htotal := Crowd.total_after (Activity.effort policy) hkey
      (t := a.step s c.now key c.shared)
    have hjobs : (c.turn (process s) key a).shared.reports.jobs =
        (a.step s c.now key c.shared).shared.reports.jobs := rfl
    have hcrowd : c.turn (process s) key a = c.after key (a.step s c.now key c.shared) := rfl
    rw [hstarted, List.map_nil, List.sum_nil] at htotal
    rw [effort, effort, hjobs, hcrowd]
    omega

/-- Unless callers come, there are only so many turns. -/
theorem OnlyReports.turns_le (renders : ∀ tasks, s.render tasks ≠ .crash)
    (attended : Attended c) (h : OnlyReports c) {pace : Crowd World Activity → Nat → Prop} {m : Nat}
    {c' : Crowd World Activity} (run : Crowd.Run (process s) pace Crowd.noCall c m c') :
    Attended c' ∧ OnlyReports c' ∧ m + effort s.retry c' ≤ effort s.retry c := by
  induction run with
  | begin => exact ⟨attended, h, Nat.le_of_eq (Nat.zero_add _)⟩
  | turn run can ih =>
      obtain ⟨hattended, honly, hle⟩ := ih
      have attends := attends_of_canGo renders hattended.isOpen can
      obtain ⟨honly', hlt⟩ := honly.turn attends can.here s.retry
      refine ⟨hattended.after attends can.here, honly', ?_⟩
      omega
  | await run le may ih => exact ⟨ih.1.await _, ih.2.1, ih.2.2⟩
  | call run may => exact may.elim

/-- A caller that waits does so for a time. -/
theorem wait_report_eq {stage : ReportCall} {due : Option Nat}
    (h : stage.wait now key w = .change due) : ∃ t, due = some t := by
  have hsome : ∀ {p : Prop} [Decidable p] {t : Nat},
      (if p then Wait.nothing else .change (some t)) = .change due → ∃ t, due = some t := by
    intro p _ t h
    split at h
    · cases h
    · cases h
      exact ⟨t, rfl⟩
  cases stage with
  | fresh ids start limit => exact hsome h
  | inLine ids deadline => exact hsome h
  | listening deadline => exact hsome h
  | finished answer time => cases h

/-- All callers can get their answers, without anybody's help. -/
theorem OnlyReports.comes_to_end (renders : ∀ tasks, s.render tasks ≠ .crash)
    (attended : Attended c) (h : OnlyReports c) :
    ∃ m c', Crowd.Run (process s) (Crowd.Urgent (process s)) Crowd.noCall c m c' ∧
      AllReported c' := by
  -- By the number of turns that are left.
  induction hn : effort s.retry c using Nat.strongRecOn generalizing c with
  | ind n ih =>
    have hgo : ∀ {c : Crowd World Activity}, effort s.retry c = n → Attended c → OnlyReports c →
        (∃ k b, c.CanGo (process s) k b) → ∃ m c', Crowd.Run (process s)
          (Crowd.Urgent (process s)) Crowd.noCall c m c' ∧ AllReported c' := by
      rintro c hn attended h ⟨k, b, can⟩
      have attends := attends_of_canGo renders attended.isOpen can
      obtain ⟨hturn, hlt⟩ := h.turn attends can.here s.retry
      obtain ⟨m, c', run, hall⟩ := ih _ (hn ▸ hlt) (attended.after attends can.here) hturn rfl
      exact ⟨_, c', (Crowd.Run.begin.turn can).trans run, hall⟩
    by_cases hcan : ∃ k b, c.CanGo (process s) k b
    · exact hgo hn attended h hcan
    · by_cases hall : AllReported c
      · exact ⟨0, c, .begin, hall⟩
      · -- Then a caller waits, and time passes until somebody can go on.
        obtain ⟨k, stage, hk, going⟩ : ∃ (k : TaskKey) (stage : ReportCall),
            c.tasks[k]? = some (.report stage) ∧ Activity.isFinished (.report stage) = false := by
          by_contra hnone
          refine hall fun k stage hk => ?_
          cases stage with
          | finished answer time => exact ⟨answer, time, rfl⟩
          | _ => exact absurd ⟨k, _, hk, rfl⟩ hnone
        have hwaiting : Waiting c := Waiting.of_stuck (s := s)
          fun k b (can : c.CanGo (amid s fun _ _ _ => s.probe.network) k b) => hcan ⟨k, b, can⟩
        obtain ⟨due, hdue⟩ := hwaiting k _ hk going
        obtain ⟨t, rfl⟩ := wait_report_eq hdue
        obtain ⟨later, hle, hurgent, hnext⟩ : ∃ later, c.now ≤ later ∧
            Crowd.Urgent (amid s fun _ _ _ => s.probe.network) c later ∧
            ∃ k b, (c.await later).CanGo (amid s fun _ _ _ => s.probe.network) k b :=
          hwaiting.next hk going hdue
        obtain ⟨m, c', run, hall'⟩ := hgo (c := c.await later) hn (attended.await later) h hnext
        exact ⟨_, c', (Crowd.Run.begin.await hle hurgent).trans run, hall'⟩

/-- When nobody can go on any more, however long it waits, all callers have their answers. -/
theorem allReported_of_still (still : c.Still (process s)) : AllReported c := by
  intro k stage hk
  by_contra hnone
  have going : Activity.isFinished (.report stage) = false := by
    cases stage with
    | finished answer time => exact absurd ⟨answer, time, rfl⟩ hnone
    | _ => rfl
  cases hwait : Activity.wait c.now k c.shared (.report stage) with
  | nothing => exact still c.now (Nat.le_refl _) k _ ⟨hk, going, .inl hwait⟩
  | disk => exact still c.now (Nat.le_refl _) k _ ⟨hk, going, .inr hwait⟩
  | change due =>
      obtain ⟨t, rfl⟩ := wait_report_eq hwait
      exact still t (due_of_wait hwait) k _ ⟨hk, going, .inl (nothing_of_wait hwait)⟩

/-- Time does not pass the start of a caller before it has started. -/
theorem le_start_of_urgent {ids : List TaskId} {start : Nat} {limit : Int} {later : Nat}
    (hkey : c.tasks[key]? = some (.report (.fresh ids start limit)))
    (urgent : Crowd.Urgent (process s) c later) : later ≤ start := by
  obtain ⟨due, hwait, hle⟩ := urgent key _ hkey rfl
  have hstart : (if start ≤ c.now then Wait.nothing else .change (some start)) = .change due := hwait
  split at hstart
  · cases hstart
  · cases hstart
    exact hle start rfl

/-- An answer stays as it is. -/
theorem Reported.mono {pace : Crowd World Activity → Nat → Prop} {calls : Activity → Prop} {m : Nat}
    {c' : Crowd World Activity} {answer : Except Report.Error String} {time : Nat}
    (h : Reported c key answer time) (run : Crowd.Run (process s) pace calls c m c') :
    Reported c' key answer time := by
  induction run with
  | begin => exact h
  | @turn m c' other a run can ih =>
      refine Crowd.getElem?_after_of_ne (fun hsame => ?_) ih
      subst hsame
      obtain rfl := Option.some.inj (can.here.symm.trans ih)
      cases can.unfinished
  | await run le may ih => exact ih
  | call run may ih => exact Crowd.getElem?_call_of_some ih

end Ends

/-! ## What the answers are -/

section Gets

variable {s : Settings} {deeds : List (Deed World Activity)} {o : Order} {time : Nat}

/-- A report is on what the store answered to the question for the tasks of the order. -/
theorem Gets.text {text : String} (h : Gets s deeds o time (.ok text)) :
    time < o.deadline ∧ ∃ reply, Heard s deeds o (.ok reply) ∧
      s.render reply.found = .text text := by
  generalize hanswer : Except.ok text = answer at h
  cases h with
  | @result told hheard =>
      obtain ⟨hlt, reply, rfl, hrender⟩ := ReportJob.result_eq_ok hanswer.symm
      exact ⟨hlt, reply, hheard, hrender⟩
  | late h => cases hanswer

theorem Gets.cancelled (h : Gets s deeds o time (.error .cancelled)) : o.deadline ≤ time := by
  generalize hanswer : Except.error Report.Error.cancelled = answer at h
  cases h with
  | result told => exact ReportJob.deadline_le_of_result hanswer.symm
  | late h => exact h

theorem Gets.ne_queueClosed (renders : ∀ tasks, s.render tasks ≠ .crash) :
    ¬ Gets s deeds o time (.error .queueClosed) := by
  intro h
  generalize hanswer : Except.error Report.Error.queueClosed = answer at h
  cases h with
  | result told => exact ReportJob.result_ne_queueClosed renders hanswer.symm
  | late h => cases hanswer

end Gets

section Trail

variable {s : Settings} {clock : ClockKind} {service : StoreService} {workers reportWorkers : Nat}
  {c : Crowd World Activity} {deeds : List (Deed World Activity)}

/-- No more orders are seen to at once than there are workers. -/
theorem countP_job?_le (renders : ∀ tasks, s.render tasks ≠ .crash)
    {pace : Crowd World Activity → Nat → Prop}
    (trail : Crowd.Trail (process s) pace Comes
      (World.initial clock service workers reportWorkers).crowd deeds c) :
    c.tasks.countP (·.job?.isSome) ≤ orElse reportWorkers standardReportWorkers := by
  have hworkers := countP_isWorker renders (.first clock service workers reportWorkers) trail
  have hfirst : (World.initial clock service workers reportWorkers).crowd.tasks.countP
      Activity.isWorker = orElse reportWorkers standardReportWorkers := List.countP_replicate
  rw [← hfirst, ← hworkers]
  refine List.countP_mono_left fun a _ hjob => ?_
  by_contra hnot
  rw [Activity.job?_eq_none (Bool.not_eq_true _ ▸ hnot)] at hjob
  cases hjob

theorem OnlyReports.of_trail (renders : ∀ tasks, s.render tasks ≠ .crash)
    {pace : Crowd World Activity → Nat → Prop}
    (trail : Crowd.Trail (process s) pace IsOrder
      (World.initial clock service workers reportWorkers).crowd deeds c) : OnlyReports c := by
  induction trail with
  | begin =>
      intro key a hkey
      rw [World.eq_idle_of_crowd hkey]
      rfl
  | turn trail can ih =>
      have attended := Attended.of_trail renders (.first clock service workers reportWorkers)
        (trail.mono (fun _ _ h => h) fun _ => .inl)
      exact (ih.turn (attends_of_canGo renders attended.isOpen can) can.here s.retry).1
  | await trail le may ih => exact ih
  | call trail may ih =>
      intro key b hb
      rcases Crowd.getElem?_call hb with ⟨-, rfl⟩ | hb
      · cases may
        rfl
      · exact ih key b hb

/-- Callers that order reports from workers whose renderer does not crash, whatever the store, or
    what stands before it, answers and when, or if it never does.

    As long as a caller that has started has no answer, the later of its start and of its deadline
    is not over, so its answer comes by then. A report comes before the deadline and is on what was
    answered to the question for the caller's own tasks; an order is given up at its deadline at the
    earliest; and the queue is never closed. Callers start as soon as their time has come, and can
    all get an answer without anybody's help. There are only so many turns; an answer stays as it
    is, and when nobody can go on any more, all callers have theirs. No more orders are seen to at
    once than there are workers. Orders are taken in the order in which they were put into the
    queue, and none of them twice. -/
theorem reported_in_time (renders : ∀ tasks, s.render tasks ≠ .crash)
    (trail : Crowd.Trail (process s) (Crowd.Urgent (process s)) IsOrder
      (World.initial clock service workers reportWorkers).crowd deeds c) :
    (∀ o ∈ orders deeds,
      ((∀ answer time, ¬ Reported c o.caller answer time) → c.now ≤ max o.began o.deadline) ∧
      (∀ answer time, Reported c o.caller answer time → time ≤ max o.began o.deadline ∧
        answer ≠ .error .queueClosed ∧
        (answer = .error .cancelled → o.deadline ≤ time) ∧
        ∀ text, answer = .ok text → time < o.deadline ∧
          ∃ reply, Heard s deeds o (.ok reply) ∧ s.render reply.found = .text text)) ∧
    (∀ (key : TaskKey) ids start limit, c.tasks[key]? = some (.report (.fresh ids start limit)) →
      ∀ later, Crowd.Urgent (process s) c later → later ≤ start) ∧
    (∃ m c', Crowd.Run (process s) (Crowd.Urgent (process s)) Crowd.noCall c m c' ∧
      AllReported c') ∧
    (∀ m c', Crowd.Run (process s) Crowd.anyTime Crowd.noCall c m c' → m ≤ effort s.retry c ∧
      (∀ key answer time, Reported c key answer time → Reported c' key answer time) ∧
      (c'.Still (process s) → AllReported c')) ∧
    c.tasks.countP (·.job?.isSome) ≤ orElse reportWorkers standardReportWorkers ∧
    entered deeds = taken deeds ++ c.shared.reports.jobs ∧
    ((entered deeds).map (·.caller)).Nodup := by
  have hcomes : Crowd.Trail (process s) (Crowd.Urgent (process s)) Comes
      (World.initial clock service workers reportWorkers).crowd deeds c :=
    trail.mono (fun _ _ h => h) fun _ => .inl
  have hfirst := Attended.first clock service workers reportWorkers
  have attended := Attended.of_trail renders hfirst hcomes
  have only := OnlyReports.of_trail renders trail
  have fifo := FirstInFirstOut.of_trail renders hfirst rfl hcomes
  refine ⟨fun o ho => ?_, fun key ids start limit hkey later => le_start_of_urgent hkey,
    only.comes_to_end renders attended, fun m c' run => ?_, countP_job?_le renders hcomes,
    fifo.order, fifo.once⟩
  · have hstands := Order.Stands.of_urgent renders hfirst hcomes o ho
    obtain ⟨stage, hstage, hcalls⟩ := hstands.caller
    refine ⟨fun going => ?_, fun answer time hreported => ?_⟩
    · cases stage with
      | fresh => exact hcalls.elim
      | inLine => exact hcalls.2.2.2
      | listening => exact hcalls.2.1.2
      | finished answer time => exact absurd hstage (going answer time)
    · obtain rfl := Activity.report.inj (Option.some.inj (hstage.symm.trans hreported))
      obtain ⟨given, ⟨rfl, hle⟩, hgets⟩ := hcalls
      refine ⟨hle, ?_, ?_, ?_⟩
      · rintro rfl
        exact Gets.ne_queueClosed renders hgets
      · rintro rfl
        exact hgets.cancelled
      · rintro text rfl
        exact hgets.text
  · obtain ⟨-, -, hle⟩ := only.turns_le renders attended run
    exact ⟨Nat.le_trans (Nat.le_add_right ..) hle, fun key answer time h => h.mono run,
      allReported_of_still⟩

end Trail

/-! ## Two callers and one worker -/

/-- A caller with some time, and one without any. -/
def sampleOrders : Crowd World Activity :=
  (sampleCrowd.call (.report (.fresh [1] 0 5))).call (.report (.fresh [2] 0 0))

/-- What a caller has got, and when. -/
def Activity.report? : Activity → Option (Except Report.Error String × Nat)
  | .report (.finished answer time) => some (answer, time)
  | _ => none

theorem reported_of_report? {c : Crowd World Activity} {key : TaskKey}
    {answer : Except Report.Error String} {time : Nat}
    (h : c.tasks[key]?.bind Activity.report? = some (answer, time)) :
    Reported c key answer time := by
  obtain ⟨a, ha, hreport⟩ := Option.bind_eq_some_iff.1 h
  unfold Activity.report? at hreport
  split at hreport
  · cases hreport
    exact ha
  · cases hreport

/-- The first caller gets its report; the second one gives up, its order still in the queue. -/
theorem reported_in_time_two_callers : ∃ deeds c,
    Crowd.Trail (process sampleSettings) (Crowd.Urgent (process sampleSettings)) IsOrder
      sampleCrowd deeds c ∧
    ⟨1, [1], 0, 5⟩ ∈ orders deeds ∧ Reported c 1 (.ok "") 0 ∧ Reported c 2 (.error .cancelled) 0 ∧
    (∃ reply, Heard sampleSettings deeds ⟨1, [1], 0, 5⟩ (.ok reply)) ∧
    ((entered deeds).map (·.caller)).Nodup := by
  have hplay : ((sampleOrders.turn (process sampleSettings) 1 (.report (.fresh [1] 0 5))).play?
      (process sampleSettings) [1, 0, 0, 0, 0, 0, 1, 2, 2, 2]).any (fun c =>
        c.tasks[1]?.bind Activity.report? = some (.ok "", 0) ∧
        c.tasks[2]?.bind Activity.report? = some (.error .cancelled, 0)) = true := by
    decide +kernel
  obtain ⟨c, hc, h⟩ := (Option.any_eq_true _ _).1 hplay
  obtain ⟨hfirst, hsecond⟩ := of_decide_eq_true h
  have renders : ∀ tasks, sampleSettings.render tasks ≠ .crash := fun _ => nofun
  have can : sampleOrders.CanGo (process sampleSettings) 1 (.report (.fresh [1] 0 5)) :=
    ⟨rfl, rfl, .inl rfl⟩
  have hstart : Crowd.Trail (process sampleSettings) (Crowd.Urgent (process sampleSettings)) IsOrder
      sampleCrowd _ (sampleOrders.turn (process sampleSettings) 1 (.report (.fresh [1] 0 5))) :=
    ((Crowd.Trail.begin.call (.order [1] 0 5)).call (.order [2] 0 0)).turn can
  obtain ⟨n, run⟩ := Crowd.Run.begin.play? hc
  obtain ⟨deeds, trail⟩ := run.trail
  have hwhole := hstart.trans trail
  have horder : ⟨1, [1], 0, 5⟩ ∈ orders
      ([sampleOrders.deed (process sampleSettings) 1 (.report (.fresh [1] 0 5))] ++ deeds) :=
    List.mem_cons_self ..
  have hreported := reported_of_report? hfirst
  have hall := reported_in_time renders hwhole
  obtain ⟨-, reply, hheard, -⟩ := ((hall.1 _ horder).2 _ _ hreported).2.2.2 "" rfl
  exact ⟨_, c, hwhole, horder, hreported, reported_of_report? hsecond, ⟨reply, hheard⟩,
    hall.2.2.2.2.2.2⟩

end Reachability.Engine
