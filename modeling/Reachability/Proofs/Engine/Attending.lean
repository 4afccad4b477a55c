import Reachability.Proofs.Engine.Acts
import Reachability.Proofs.Engine.Schedules

set_option autoImplicit false

/-! # The turns of reports

A caller that orders a report waits for a place in the queue, puts its order there and waits for the
answer, but no longer than to its deadline. A worker waits for its turn at the queue, takes the
first order, asks the store and answers. `Attends` lists these turns; all others leave reports
alone. They are those of an engine whose workers do not crash, whatever the store does. -/

namespace Reachability

/-- The tasks in an answer of the store, if it has any. -/
def StoreReply.found : StoreReply → List Task
  | .tasks value => value
  | _ => []

namespace Engine

open StoreService (Visit Moves)

/-! ## What comes of an order -/

/-- The answer to an order when the store has given its own. -/
def ReportJob.result (s : Settings) (now : Nat) (job : ReportJob) :
    StoreAnswer → Except Report.Error String
  | .error e => .error (.store e)
  | .ok reply =>
    if job.deadline ≤ now then .error .cancelled
    else
      match s.render reply.found with
      | .text text => .ok text
      | .failed reason => .error (.render reason)
      | .crash => .error .queueClosed

/-- The queue after a worker has taken its first order. -/
def ReportQueue.taken (q : ReportQueue) (worker : TaskKey) (job : ReportJob)
    (rest : List ReportJob) : ReportQueue :=
  { q with
    jobs := rest
    places := q.places.release job.caller
    receiver := q.receiver.release worker }

section Result

variable {s : Settings} {now : Nat} {job : ReportJob} {answer : StoreAnswer}

/-- A report comes before the deadline and is on the tasks that the store answered with. -/
theorem ReportJob.result_eq_ok {text : String} (h : job.result s now answer = .ok text) :
    now < job.deadline ∧ ∃ reply, answer = .ok reply ∧ s.render reply.found = .text text := by
  cases answer with
  | error e => cases h
  | ok reply =>
      simp only [result] at h
      split at h
      · cases h
      · next intime =>
        refine ⟨Nat.lt_of_not_le intime, reply, rfl, ?_⟩
        cases hrender : s.render reply.found with
        | text t =>
            rw [hrender] at h
            rw [Except.ok.inj h]
        | failed reason =>
            rw [hrender] at h
            cases h
        | crash =>
            rw [hrender] at h
            cases h

/-- An order is given up at its deadline at the earliest. -/
theorem ReportJob.deadline_le_of_result (h : job.result s now answer = .error .cancelled) :
    job.deadline ≤ now := by
  cases answer with
  | error e => cases h
  | ok reply =>
      simp only [result] at h
      split at h
      · assumption
      · split at h <;> cases h

/-- The queue does not close while nothing crashes. -/
theorem ReportJob.result_ne_queueClosed (renders : ∀ tasks, s.render tasks ≠ .crash) :
    job.result s now answer ≠ .error .queueClosed := by
  intro h
  cases answer with
  | error e => cases h
  | ok reply =>
      simp only [result] at h
      split at h
      · cases h
      · split at h
        · cases h
        · cases h
        · next hcrash => exact renders _ hcrash

end Result

/-! ## The turns -/

/-- A turn with another queue of reports after it. -/
def withReports (q : ReportQueue) (t : Turn World Activity) : Turn World Activity :=
  ⟨{ t.shared with reports := q }, t.task, t.started⟩

/-- All that a turn can do to reports. -/
inductive Attends (s : Settings) (now : Nat) (key : TaskKey) (w : World) :
    Activity → Turn World Activity → Prop where
  | aside {a : Activity} {t : Turn World Activity} (before : a.isReporting = false)
      (after : t.task.isReporting = false) (started : ∀ b ∈ t.started, b.isReporting = false)
      (reports : t.shared.reports = w.reports) : Attends s now key w a t
  | asks : Attends s now key w (.worker .idle)
      ⟨{ w with reports := { w.reports with receiver := w.reports.receiver.request key } },
        .worker .inLine, []⟩
  | listens : Attends s now key w (.worker .inLine) ⟨w, .worker .listening, []⟩
  | drops {job : ReportJob} {rest : List ReportJob} (first : w.reports.jobs = job :: rest)
      (late : job.deadline ≤ now) :
      Attends s now key w (.worker .listening)
        ⟨{ w with reports :=
            (w.reports.taken key job rest).reply job.caller (.error .cancelled) },
          .worker .idle, []⟩
  | takes {job : ReportJob} {rest : List ReportJob} (first : w.reports.jobs = job :: rest)
      (intime : now < job.deadline) :
      Attends s now key w (.worker .listening)
        ⟨{ w with reports := w.reports.taken key job rest },
          .worker (.loading job (.arriving (.read job.ids))), []⟩
  | loads {job : ReportJob} {visit visit' : Visit} {service : StoreService}
      (going : visit.isAnswered = false)
      (moves : Moves s.front (s.moment now) now key w.service visit service visit') :
      Attends s now key w (.worker (.loading job visit))
        ⟨{ w with service }, .worker (.loading job visit'), []⟩
  | replies {job : ReportJob} {answer : StoreAnswer} :
      Attends s now key w (.worker (.loading job (.answered answer)))
        ⟨{ w with reports := w.reports.reply job.caller (job.result s now answer) },
          .worker .idle, []⟩
  | begins {ids : List TaskId} {start : Nat} {limit : Int} :
      Attends s now key w (.report (.fresh ids start limit))
        ⟨{ w with reports := { w.reports with places := w.reports.places.request key } },
          .report (.inLine ids (ReportCall.deadline now limit)), []⟩
  | enters {ids : List TaskId} {deadline : Nat} :
      Attends s now key w (.report (.inLine ids deadline))
        ⟨{ w with reports :=
            { w.reports with jobs := w.reports.jobs ++ [⟨key, ids, deadline⟩] } },
          .report (.listening deadline), []⟩
  | givesUp {ids : List TaskId} {deadline : Nat} (late : deadline ≤ now) :
      Attends s now key w (.report (.inLine ids deadline))
        ⟨{ w with reports := { w.reports with places := w.reports.places.leave key } },
          .report (.finished (.error .cancelled) now), []⟩
  | hears {deadline : Nat} {answer : Except Report.Error String}
      (there : w.reports.replies.get? key = some answer) :
      Attends s now key w (.report (.listening deadline))
        ⟨w, .report (.finished answer now), []⟩
  | leaves {deadline : Nat} (late : deadline ≤ now) :
      Attends s now key w (.report (.listening deadline))
        ⟨w, .report (.finished (.error .cancelled) now), []⟩

section Attends

variable {s : Settings} {now : Nat} {key : TaskKey} {w : World}

/-! ## Those who leave reports alone -/

section Aside

variable (q : ReportQueue)

theorem report_reports (parent : TaskKey) (link : String) (status : LinkStatus) (w : World) :
    LinkCheck.report parent link status { w with reports := q } =
      { LinkCheck.report parent link status w with reports := q } := by
  simp only [LinkCheck.report]
  split <;> rfl

theorem step_reports_check (parent : TaskKey) (deadline : Nat) (stage : LinkCheck) :
    Activity.step s now key { w with reports := q } (.check parent deadline stage) =
      withReports q (Activity.step s now key w (.check parent deadline stage)) := by
  cases stage with
  | fresh link => rfl
  | inLine link =>
      simp only [Activity.step, LinkCheck.step]
      split
      · rfl
      · simp only [LinkCheck.conclude, ← report_reports, withReports]
  | probing link stage =>
      simp only [Activity.step, LinkCheck.step]
      split
      · simp only [LinkCheck.conclude, ← report_reports, withReports]
      · rfl
  | finished link status => rfl

theorem step_reports_batch (stage : BatchCall) :
    Activity.step s now key { w with reports := q } (.batch stage) =
      withReports q (Activity.step s now key w (.batch stage)) := by
  cases stage with
  | creating caller visit =>
      cases visit with
      | answered answer =>
          cases answer with
          | ok reply =>
              cases reply with
              | task task =>
                  cases hd : BatchCall.deadline? s now caller with
                  | some d => rw [Activity.step_launch task hd, Activity.step_launch task hd]; rfl
                  | none => rw [Activity.step_crash task hd, Activity.step_crash task hd]; rfl
              | _ => rfl
          | error e => rfl
      | _ => rfl
  | updating task results visit =>
      cases visit with
      | answered answer => cases answer <;> rfl
      | _ => rfl
  | _ => rfl

theorem step_reports_retry (job : RetryJob) (stage : Retry) :
    Activity.step s now key { w with reports := q } (.retry job stage) =
      withReports q (Activity.step s now key w (.retry job stage)) := by
  cases stage with
  | trying left backoff visit =>
      cases visit with
      | answered answer =>
          cases answer with
          | ok reply => rfl
          | error e =>
              simp only [Activity.step, Retry.step, Retry.afterFailure]
              split <;> rfl
      | _ => rfl
  | _ => rfl

/-- Who has nothing to do with reports does the same whatever they are. -/
theorem step_reports {a : Activity} (h : a.isReporting = false) :
    a.step s now key { w with reports := q } = withReports q (a.step s now key w) := by
  cases a with
  | check parent deadline stage => exact step_reports_check q parent deadline stage
  | batch stage => exact step_reports_batch q stage
  | retry job stage => exact step_reports_retry q job stage
  | submission job stage => cases stage <;> rfl
  | drain stage => cases stage <;> rfl
  | worker stage => cases h
  | report stage => cases h
  | probe deadline stage => rfl
  | rest stop isOver => rfl

/-- So it leaves them alone. -/
theorem reports_step {a : Activity} (h : a.isReporting = false) :
    (a.step s now key w).shared.reports = w.reports :=
  congrArg (·.shared.reports) (step_reports w.reports h)

end Aside

/-- Who has nothing to do with reports leaves them alone, and so do all whom it starts. -/
theorem attends_of_not_isReporting {a : Activity} (h : a.isReporting = false) :
    Attends s now key w a (a.step s now key w) := by
  refine .aside h ?_ ?_ (reports_step h)
  · cases a with
    | worker stage => cases h
    | report stage => cases h
    | _ => rfl
  · intro b hb
    cases a with
    | batch stage =>
        rcases List.mem_append.1 hb with hb | hb
        · obtain ⟨check, -, rfl⟩ := List.mem_map.1 hb
          rfl
        · obtain ⟨job, -, rfl⟩ := List.mem_map.1 hb
          rfl
    | submission job stage =>
        cases stage with
        | inLine => exact List.mem_singleton.1 hb ▸ rfl
        | _ => cases hb
    | worker stage => cases h
    | report stage => cases h
    | _ => cases hb

/-! ## Workers and callers -/

section CanGo

variable {c : Crowd World Activity}

/-- A worker answers with what comes of its order. -/
theorem render_eq (renders : ∀ tasks, s.render tasks ≠ .crash) (job : ReportJob)
    (reply : StoreReply) : ReportWorker.render s now w job reply.found =
      ReportWorker.reply w job (job.result s now (.ok reply)) := by
  simp only [ReportWorker.render, ReportJob.result]
  by_cases late : job.deadline ≤ now
  · rw [if_pos late, if_pos late]
  · rw [if_neg late, if_neg late]
    cases hrender : s.render reply.found with
    | text text => rfl
    | failed reason => rfl
    | crash => exact absurd hrender (renders _)

theorem attends_worker (renders : ∀ tasks, s.render tasks ≠ .crash) {stage : ReportWorker}
    (can : c.CanGo (process s) key (.worker stage)) :
    Attends s c.now key c.shared (.worker stage)
      (Activity.step s c.now key c.shared (.worker stage)) := by
  cases stage with
  | idle => exact .asks
  | inLine => exact .listens
  | listening =>
      cases hjobs : c.shared.reports.jobs with
      | nil => exact absurd hjobs (jobs_ne_nil_of_canGo can)
      | cons job rest =>
          simp only [Activity.step, ReportWorker.step, ReportWorker.take, hjobs]
          split
          · next late => exact .drops hjobs late
          · next intime => exact .takes hjobs (Nat.lt_of_not_le intime)
  | loading job visit =>
      cases visit with
      | answered answer =>
          cases answer with
          | error e => exact .replies
          | ok reply =>
              have hstep : Activity.step s c.now key c.shared
                  (.worker (.loading job (.answered (.ok reply)))) =
                  ⟨(ReportWorker.render s c.now c.shared job reply.found).1,
                    .worker (ReportWorker.render s c.now c.shared job reply.found).2, []⟩ := by
                cases reply <;> rfl
              rw [hstep, render_eq renders]
              exact .replies
      | _ => exact .loads rfl (StoreService.moves_step ..)
  | crashed => cases can.unfinished

/-- A caller whose place, or answer, has not come goes on because of its deadline. -/
theorem attends_report (isOpen : c.shared.reports.isClosed = false) {stage : ReportCall}
    (can : c.CanGo (process s) key (.report stage)) :
    Attends s c.now key c.shared (.report stage)
      (Activity.step s c.now key c.shared (.report stage)) := by
  cases stage with
  | fresh ids start limit =>
      simp only [Activity.step, ReportCall.step, isOpen, Bool.false_eq_true, if_false]
      exact .begins
  | inLine ids deadline =>
      simp only [Activity.step, ReportCall.step, isOpen, Bool.false_eq_true, if_false]
      split
      · exact .enters
      · next hwithout =>
        have hready : (c.shared.reports.places.holds key || c.shared.reports.isClosed ||
            decide (deadline ≤ c.now)) = true := can.of_wait rfl
        rw [isOpen, Bool.eq_false_iff.2 hwithout, Bool.or_false, Bool.false_or] at hready
        exact .givesUp (of_decide_eq_true hready)
  | listening deadline =>
      simp only [Activity.step, ReportCall.step]
      cases hreply : c.shared.reports.replies.get? key with
      | some answer => exact .hears hreply
      | none =>
          have hready : (c.shared.reports.replies.contains key ||
              decide (deadline ≤ c.now)) = true := can.of_wait rfl
          rw [Table.contains, hreply, Option.isSome_none, Bool.false_or] at hready
          exact .leaves (of_decide_eq_true hready)
  | finished answer time => cases can.unfinished

/-- What a task does to reports when it can go on. -/
theorem attends_of_canGo (renders : ∀ tasks, s.render tasks ≠ .crash)
    (isOpen : c.shared.reports.isClosed = false) {a : Activity}
    (can : c.CanGo (process s) key a) :
    Attends s c.now key c.shared a (a.step s c.now key c.shared) := by
  cases a with
  | worker stage => exact attends_worker renders can
  | report stage => exact attends_report isOpen can
  | _ => exact attends_of_not_isReporting rfl

end CanGo

end Attends

end Engine

end Reachability
