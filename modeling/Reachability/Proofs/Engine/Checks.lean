import Reachability.Proofs.Engine.Persistence
import Reachability.Proofs.Probe.Stages

set_option autoImplicit false

/-! # The checks of links

A batch starts a check for each of its links and waits until all are at their end. `Deals` lists all
that a turn of any task can do to these checks, to their permits and to what has come of them. A
batch that waits knows how many of its checks are not at their end, and each of these has its batch
waiting for it, under the same deadline (`Joined`). All this holds whatever the network answers, and
if its answers change from one turn to the next (`amid`). -/

namespace Reachability.Engine

/-! ## Networks that change -/

/-- The settings with another network. -/
def Settings.over (s : Settings) (network : Network) : Settings :=
  { s with probe := { s.probe with network } }

/-- The engine amid networks: the one that a task meets depends on the time, on the task and on what
    all tasks share. -/
def amid (s : Settings) (networks : Nat → TaskKey → World → Network) :
    Process World Activity where
  wait := Activity.wait
  isFinished := Activity.isFinished
  step now key _ w := Activity.step (s.over (networks now key w)) now key w

/-- A network that stays the same is one of them. -/
theorem amid_const (s : Settings) : amid s (fun _ _ _ => s.probe.network) = process s := rfl

theorem canGo_over {s : Settings} {networks : Nat → TaskKey → World → Network}
    {c : Crowd World Activity} {key : TaskKey} {a : Activity} (can : c.CanGo (amid s networks) key a)
    (network : Network) : c.CanGo (process (s.over network)) key a :=
  ⟨can.here, can.unfinished, can.ready⟩

/-- What callers ask for: a batch to be checked, to wait until all results are stored, or a
    report. -/
inductive Requested : Activity → Prop where
  | check (links : List String) (deadline : Option Nat) :
      Requested (.batch (.start links deadline))
  | wait : Requested (.drain .fresh)
  | report (ids : List TaskId) (start limit : Nat) : Requested (.report (.fresh ids start limit))

/-! ## What a turn does to checks -/

/-- The link that a check is about. -/
def LinkCheck.link : LinkCheck → String
  | .fresh link => link
  | .inLine link => link
  | .probing link _ => link
  | .finished link _ => link

namespace Activity

/-- Whether a task looks at links itself: as a check, or outside of any batch. -/
def isLooking : Activity → Bool
  | check .. => true
  | probe .. => true
  | _ => false

/-- Whether a batch waits for its checks. -/
def isJoining : Activity → Bool
  | batch (.joining ..) => true
  | _ => false

/-- Whether a task has nothing to do with checks. -/
def isAside (a : Activity) : Bool := !a.isLooking && !a.isJoining

/-- The task of a batch whose checks are all at their end, and what came of its links. -/
def results? : Activity → Option (TaskId × Results)
  | batch (.updating task results _) => some (task.id, results)
  | batch (.submitting task results) => some (task.id, results)
  | batch (.finished (.ok o)) => some (o.id, o.results)
  | _ => none

end Activity

/-- What has come of the links of a batch so far. -/
def World.found (w : World) (batch : TaskKey) : Results :=
  match w.batches.get? batch with
  | some p => p.results
  | none => .empty

/-- A turn that leaves checks, and what they have to do with, alone. -/
structure Aside (w : World) (a : Activity) (t : Turn World Activity) : Prop where
  before : a.isAside = true
  after : t.task.isAside = true
  started : ∀ b ∈ t.started, ∃ job stage, b = .retry job stage
  results : t.task.results? = a.results?
  permits : t.shared.permits = w.permits
  batches : t.shared.batches = w.batches
  traffic : t.shared.scene.traffic = w.scene.traffic
  circuits : t.shared.scene.circuits = w.scene.circuits

/-- All that a turn can do to checks. -/
inductive Deals (s : Settings) (now : Nat) (key : TaskKey) (w : World) :
    Activity → Turn World Activity → Prop where
  | launches {caller : Option Nat} {task : Task} {deadline : Nat}
      (known : BatchCall.deadline? s now caller = some deadline) :
      Deals s now key w (.batch (.creating caller (.answered (.ok (.task task)))))
        ⟨{ w with batches := w.batches.insert key ⟨.empty, task.links.length⟩ },
          .batch (.joining task deadline),
          task.links.map fun link => .check key deadline (.fresh link)⟩
  | gathers {task : Task} {deadline : Nat} (joined : BatchCall.isJoined w key = true) :
      Deals s now key w (.batch (.joining task deadline))
        ⟨{ w with batches := w.batches.erase key },
          .batch (.updating task (BatchCall.completed task.links (w.found key))
            (.arriving (.update task.id (BatchCall.completed task.links (w.found key))))), []⟩
  | queues {parent : TaskKey} {deadline : Nat} {link : String} :
      Deals s now key w (.check parent deadline (.fresh link))
        ⟨{ w with permits := w.permits.request key }, .check parent deadline (.inLine link), []⟩
  | starts {parent : TaskKey} {deadline : Nat} {link : String}
      (holds : w.permits.holds key = true) :
      Deals s now key w (.check parent deadline (.inLine link))
        ⟨w, .check parent deadline (.probing link (.fresh link)), []⟩
  | givesUp {parent : TaskKey} {deadline : Nat} {link : String}
      (without : w.permits.holds key = false) (late : deadline ≤ now) :
      Deals s now key w (.check parent deadline (.inLine link))
        ⟨LinkCheck.report parent link .notAvailable { w with permits := w.permits.leave key },
          .check parent deadline (.finished link .notAvailable), []⟩
  | probes {parent : TaskKey} {deadline : Nat} {link : String} {stage : Probe.Stage}
      (going : stage.status? = none) :
      Deals s now key w (.check parent deadline (.probing link stage))
        ⟨{ w with scene := (Probe.step s.probe now deadline w.scene stage).1 },
          .check parent deadline
            (.probing link (Probe.step s.probe now deadline w.scene stage).2), []⟩
  | ends {parent : TaskKey} {deadline : Nat} {link : String} {status : LinkStatus} :
      Deals s now key w (.check parent deadline (.probing link (.finished status)))
        ⟨LinkCheck.report parent link status { w with permits := w.permits.release key },
          .check parent deadline (.finished link status), []⟩
  | aside {a : Activity} {t : Turn World Activity} (h : Aside w a t) : Deals s now key w a t

section Deals

variable {s : Settings} {now : Nat} {key : TaskKey} {w : World} {c : Crowd World Activity}

theorem deals_check {parent : TaskKey} {deadline : Nat} {stage : LinkCheck}
    (can : c.CanGo (process s) key (.check parent deadline stage)) :
    Deals s c.now key c.shared (.check parent deadline stage)
      (Activity.step s c.now key c.shared (.check parent deadline stage)) := by
  cases stage with
  | fresh link => exact .queues
  | inLine link =>
      cases hholds : c.shared.permits.holds key with
      | true =>
          simp only [Activity.step, LinkCheck.step, hholds, if_true]
          exact .starts hholds
      | false =>
          have hready : (c.shared.permits.holds key || decide (deadline ≤ c.now)) = true :=
            can.of_wait rfl
          have hlate : deadline ≤ c.now := by
            rw [hholds, Bool.false_or, decide_eq_true_eq] at hready
            exact hready
          simp only [Activity.step, LinkCheck.step, hholds, Bool.false_eq_true, if_false]
          exact .givesUp hholds hlate
  | probing link stage =>
      cases stage with
      | finished status => exact .ends
      | _ => exact .probes rfl
  | finished link status => cases can.unfinished

theorem deals_batch {stage : BatchCall} (can : c.CanGo (process s) key (.batch stage)) :
    Deals s c.now key c.shared (.batch stage)
      (Activity.step s c.now key c.shared (.batch stage)) := by
  have hnone : ∀ b ∈ ([] : List Activity), ∃ job stage, b = .retry job stage :=
    List.forall_mem_nil _
  cases stage with
  | creating caller visit =>
      cases visit with
      | answered answer =>
          match answer with
          | .ok (.task task) =>
              cases known : BatchCall.deadline? s c.now caller with
              | some deadline =>
                  rw [Activity.step_launch task known]
                  exact .launches known
              | none =>
                  rw [Activity.step_crash task known]
                  exact .aside ⟨rfl, rfl, hnone, rfl, rfl, rfl, rfl, rfl⟩
          | .ok .stored => exact .aside ⟨rfl, rfl, hnone, rfl, rfl, rfl, rfl, rfl⟩
          | .ok (.tasks _) => exact .aside ⟨rfl, rfl, hnone, rfl, rfl, rfl, rfl, rfl⟩
          | .error e => exact .aside ⟨rfl, rfl, hnone, rfl, rfl, rfl, rfl, rfl⟩
      | _ => exact .aside ⟨rfl, rfl, hnone, rfl, rfl, rfl, rfl, rfl⟩
  | joining task deadline =>
      have joined : BatchCall.isJoined c.shared key = true := can.of_wait rfl
      exact .gathers joined
  | updating task results visit =>
      cases visit with
      | answered answer => cases answer <;> exact .aside ⟨rfl, rfl, hnone, rfl, rfl, rfl, rfl, rfl⟩
      | _ => exact .aside ⟨rfl, rfl, hnone, rfl, rfl, rfl, rfl, rfl⟩
  | submitting task results =>
      refine .aside ⟨rfl, rfl, fun b hb => ?_, rfl, rfl, rfl, rfl, rfl⟩
      exact ⟨_, _, List.mem_singleton.1 hb⟩
  | finished answer => cases can.unfinished
  | crashed task => cases can.unfinished

theorem aside_retry (job : RetryJob) (stage : Retry) :
    Aside w (.retry job stage) (Activity.step s now key w (.retry job stage)) := by
  have hnone : ∀ b ∈ ([] : List Activity), ∃ job stage, b = .retry job stage :=
    List.forall_mem_nil _
  cases stage with
  | trying left backoff visit =>
      cases visit with
      | answered answer =>
          cases answer with
          | ok reply => exact ⟨rfl, rfl, hnone, rfl, rfl, rfl, rfl, rfl⟩
          | error e =>
              simp only [Activity.step, Retry.step, Retry.afterFailure]
              split <;> exact ⟨rfl, rfl, hnone, rfl, rfl, rfl, rfl, rfl⟩
      | _ => exact ⟨rfl, rfl, hnone, rfl, rfl, rfl, rfl, rfl⟩
  | _ => exact ⟨rfl, rfl, hnone, rfl, rfl, rfl, rfl, rfl⟩

/-- A worker has to do with the store and with reports only. -/
theorem shared_worker (s : Settings) (now : Nat) (key : TaskKey) (w : World)
    (stage : ReportWorker) :
    ∃ service reports, (stage.step s now key w).1 = { w with service, reports } := by
  cases stage with
  | listening =>
      simp only [ReportWorker.step, ReportWorker.take]
      split
      · exact ⟨_, _, rfl⟩
      · split <;> exact ⟨_, _, rfl⟩
  | loading job visit =>
      have hrender : ∀ tasks, ∃ service reports,
          (ReportWorker.render s now w job tasks).1 = { w with service, reports } := by
        intro tasks
        unfold ReportWorker.render
        split
        · exact ⟨_, _, rfl⟩
        · split <;> exact ⟨_, _, rfl⟩
      cases visit with
      | answered answer =>
          cases answer with
          | error e => exact ⟨_, _, rfl⟩
          | ok reply =>
              cases reply with
              | tasks tasks => exact hrender tasks
              | task task => exact hrender []
              | stored => exact hrender []
      | _ => exact ⟨_, _, rfl⟩
  | _ => exact ⟨_, _, rfl⟩

theorem aside_worker (stage : ReportWorker) :
    Aside w (.worker stage) (Activity.step s now key w (.worker stage)) := by
  obtain ⟨service, reports, hshared⟩ := shared_worker s now key w stage
  have hnone : ∀ b ∈ ([] : List Activity), ∃ job stage, b = .retry job stage :=
    List.forall_mem_nil _
  refine ⟨rfl, rfl, hnone, rfl, ?_, ?_, ?_, ?_⟩ <;>
    simp only [Activity.step, hshared]

/-- A caller of a report has to do with reports only. -/
theorem shared_report (now : Nat) (key : TaskKey) (w : World) (stage : ReportCall) :
    ∃ reports, (stage.step now key w).1 = { w with reports } := by
  cases stage with
  | fresh ids start limit =>
      simp only [ReportCall.step]
      split <;> exact ⟨_, rfl⟩
  | inLine ids deadline =>
      simp only [ReportCall.step]
      split
      · exact ⟨_, rfl⟩
      · split <;> exact ⟨_, rfl⟩
  | listening deadline =>
      simp only [ReportCall.step]
      split <;> exact ⟨_, rfl⟩
  | finished answer time => exact ⟨_, rfl⟩

theorem aside_report (stage : ReportCall) :
    Aside w (.report stage) (Activity.step s now key w (.report stage)) := by
  obtain ⟨reports, hshared⟩ := shared_report now key w stage
  have hnone : ∀ b ∈ ([] : List Activity), ∃ job stage, b = .retry job stage :=
    List.forall_mem_nil _
  refine ⟨rfl, rfl, hnone, rfl, ?_, ?_, ?_, ?_⟩ <;>
    simp only [Activity.step, hshared]

/-- What a task does that can go on, unless it looks at a link outside of any batch. -/
theorem deals_of_canGo {a : Activity} (can : c.CanGo (process s) key a)
    (kind : ∀ deadline stage, a ≠ .probe deadline stage) :
    Deals s c.now key c.shared a (a.step s c.now key c.shared) := by
  have hnone : ∀ b ∈ ([] : List Activity), ∃ job stage, b = .retry job stage :=
    List.forall_mem_nil _
  cases a with
  | check parent deadline stage => exact deals_check can
  | batch stage => exact deals_batch can
  | retry job stage => exact .aside (aside_retry job stage)
  | submission job stage =>
      cases stage with
      | inLine =>
          refine .aside ⟨rfl, rfl, fun b hb => ?_, rfl, rfl, rfl, rfl, rfl⟩
          exact ⟨_, _, List.mem_singleton.1 hb⟩
      | _ => exact .aside ⟨rfl, rfl, hnone, rfl, rfl, rfl, rfl, rfl⟩
  | drain stage => cases stage <;> exact .aside ⟨rfl, rfl, hnone, rfl, rfl, rfl, rfl, rfl⟩
  | worker stage => exact .aside (aside_worker stage)
  | report stage => exact .aside (aside_report stage)
  | probe deadline stage => exact absurd rfl (kind deadline stage)
  | rest stop isOver => exact .aside ⟨rfl, rfl, hnone, rfl, rfl, rfl, rfl, rfl⟩

end Deals

/-! ## What is left of a turn -/

section Deals

variable {s : Settings} {now : Nat} {key : TaskKey} {w : World} {a : Activity}
  {t : Turn World Activity}

theorem LinkCheck.report_eq {batch : TaskKey} {p : Progress} (hp : w.batches.get? batch = some p)
    (link : String) (status : LinkStatus) :
    LinkCheck.report batch link status w =
      { w with batches := w.batches.insert batch ⟨p.results.insert link status, p.left - 1⟩ } := by
  rw [LinkCheck.report, hp]

/-- A status is added to what has come of one batch only. -/
theorem LinkCheck.get?_report_of_ne {batch other : TaskKey} (hne : other ≠ batch) (link : String)
    (status : LinkStatus) :
    (LinkCheck.report batch link status w).batches.get? other = w.batches.get? other := by
  cases hp : w.batches.get? batch with
  | none => rw [LinkCheck.report, hp]
  | some p => rw [LinkCheck.report_eq hp, Table.get?_insert, if_neg hne]

theorem LinkCheck.permits_report (batch : TaskKey) (link : String) (status : LinkStatus) :
    (LinkCheck.report batch link status w).permits = w.permits := by
  simp only [LinkCheck.report]
  split <;> rfl

theorem LinkCheck.scene_report (batch : TaskKey) (link : String) (status : LinkStatus) :
    (LinkCheck.report batch link status w).scene = w.scene := by
  simp only [LinkCheck.report]
  split <;> rfl

theorem LinkCheck.retries_report (batch : TaskKey) (link : String) (status : LinkStatus) :
    (LinkCheck.report batch link status w).retries = w.retries := by
  simp only [LinkCheck.report]
  split <;> rfl

theorem Activity.checksOf_of_isAside (h : a.isAside = true) (batch : TaskKey) :
    a.checksOf batch = 0 := by
  cases a <;> first | rfl | cases h

/-- Only the checks of a batch and jobs are started, but by callers. -/
theorem Deals.started_cases (h : Deals s now key w a t) {b : Activity} (hb : b ∈ t.started) :
    (∃ link task deadline, b = .check key deadline (.fresh link) ∧
        t.task = .batch (.joining task deadline) ∧ link ∈ task.links) ∨
      ∃ job stage, b = .retry job stage := by
  cases h with
  | launches =>
      obtain ⟨link, hlink, rfl⟩ := List.mem_map.1 hb
      exact .inl ⟨link, _, _, rfl, rfl, hlink⟩
  | aside h => exact .inr (h.started b hb)
  | _ => cases hb

/-- A task does not begin to look at links by itself. -/
theorem Deals.isLooking (h : Deals s now key w a t)
    (kind : ∀ deadline stage, a ≠ .probe deadline stage) :
    (∀ deadline stage, t.task ≠ .probe deadline stage) ∧
      ∀ b ∈ t.started, ∀ deadline stage, b ≠ .probe deadline stage := by
  refine ⟨fun deadline stage htask => ?_, fun b hb deadline stage hprobe => ?_⟩
  · cases h with
    | aside h =>
        have hafter := h.after
        rw [htask] at hafter
        cases hafter
    | _ => cases htask
  · rcases h.started_cases hb with ⟨link, task, deadline', rfl, -⟩ | ⟨job, stage', rfl⟩ <;>
      cases hprobe

/-- A batch that begins to wait has just started its checks. -/
theorem Deals.of_joining (h : Deals s now key w a t) {task : Task} {deadline : Nat}
    (htask : t.task = .batch (.joining task deadline)) :
    ∃ caller, a = .batch (.creating caller (.answered (.ok (.task task)))) ∧
      BatchCall.deadline? s now caller = some deadline ∧
      t.shared.batches.get? key = some ⟨.empty, task.links.length⟩ ∧
      t.started = task.links.map fun link => .check key deadline (.fresh link) := by
  cases h with
  | launches known =>
      cases htask
      exact ⟨_, rfl, known, by rw [Table.get?_insert, if_pos rfl], rfl⟩
  | aside h =>
      have hafter := h.after
      rw [htask] at hafter
      cases hafter
  | _ => cases htask

/-- A check that is not at its end was a check before its turn, with the same batch, deadline and
    link. -/
theorem Deals.of_check (h : Deals s now key w a t) {parent : TaskKey} {deadline : Nat}
    {stage : LinkCheck} (htask : t.task = .check parent deadline stage)
    (going : stage.isFinished = false) :
    ∃ before, a = .check parent deadline before ∧ before.isFinished = false ∧
      before.link = stage.link := by
  cases h with
  | queues =>
      cases htask
      exact ⟨_, rfl, rfl, rfl⟩
  | starts =>
      cases htask
      exact ⟨_, rfl, rfl, rfl⟩
  | probes =>
      cases htask
      exact ⟨_, rfl, rfl, rfl⟩
  | givesUp =>
      cases htask
      cases going
  | ends =>
      cases htask
      cases going
  | aside h =>
      have hafter := h.after
      rw [htask] at hafter
      cases hafter
  | _ => cases htask

/-- A batch goes on from its checks when they are all at their end. -/
theorem Deals.isJoined (h : Deals s now key w a t) {task : Task} {deadline : Nat}
    (ha : a = .batch (.joining task deadline)) : BatchCall.isJoined w key = true := by
  cases h with
  | gathers joined => exact joined
  | aside h =>
      have hbefore := h.before
      rw [ha] at hbefore
      cases hbefore
  | _ => cases ha

/-- A batch that waits for its checks knows how many there are, as far as others have the turn. -/
theorem Deals.left (h : Deals s now key w a t) {batch : TaskKey} (hne : batch ≠ key) {p : Progress}
    (hp : w.batches.get? batch = some p) (hle : a.checksOf batch ≤ p.left) :
    ∃ p', t.shared.batches.get? batch = some p' ∧ p'.left + a.checksOf batch
      = p.left + t.task.checksOf batch + (t.started.map (Activity.checksOf batch)).sum := by
  -- The two ways in which a check can end.
  have hreport : ∀ {parent deadline stage link status} {permits : Permits},
      a = .check parent deadline stage → stage.isFinished = false →
      t = ⟨LinkCheck.report parent link status { w with permits },
        .check parent deadline (.finished link status), []⟩ →
      ∃ p', t.shared.batches.get? batch = some p' ∧ p'.left + a.checksOf batch
        = p.left + t.task.checksOf batch + (t.started.map (Activity.checksOf batch)).sum := by
    rintro parent deadline stage link status permits rfl going rfl
    by_cases hparent : parent = batch
    · subst hparent
      have hone : Activity.checksOf parent (.check parent deadline stage) = 1 :=
        if_pos ⟨rfl, going⟩
      have hzero : Activity.checksOf parent (.check parent deadline (.finished link status)) = 0 :=
        if_neg fun hboth => nomatch hboth.2
      rw [hone] at hle ⊢
      refine ⟨⟨p.results.insert link status, p.left - 1⟩, ?_, ?_⟩
      · rw [LinkCheck.report_eq (w := { w with permits }) hp, Table.get?_insert, if_pos rfl]
      · rw [hzero]
        exact Nat.sub_add_cancel hle
    · have hzero : ∀ stage, Activity.checksOf batch (.check parent deadline stage) = 0 :=
        fun stage => if_neg fun hboth => hparent hboth.1
      refine ⟨p, ?_, by rw [hzero, hzero]; rfl⟩
      rw [LinkCheck.get?_report_of_ne (Ne.symm hparent)]
      exact hp
  cases h with
  | launches =>
      refine ⟨p, ?_, ?_⟩
      · rw [Table.get?_insert, if_neg hne, hp]
      · simp [Activity.checksOf, Function.comp_def, Ne.symm hne]
  | gathers joined =>
      refine ⟨p, ?_, rfl⟩
      rw [Table.get?_erase, if_neg hne, hp]
  | queues => exact ⟨p, hp, rfl⟩
  | starts => exact ⟨p, hp, rfl⟩
  | givesUp => exact hreport rfl rfl rfl
  | probes => exact ⟨p, hp, rfl⟩
  | ends => exact hreport rfl rfl rfl
  | aside h =>
      refine ⟨p, h.batches ▸ hp, ?_⟩
      have hstarted : (t.started.map (Activity.checksOf batch)).sum = 0 := by
        refine List.sum_eq_zero_iff_forall_eq_nat.2 fun n hn => ?_
        obtain ⟨b, hb, rfl⟩ := List.mem_map.1 hn
        obtain ⟨job, stage, rfl⟩ := h.started b hb
        rfl
      rw [Activity.checksOf_of_isAside h.before, Activity.checksOf_of_isAside h.after, hstarted]

end Deals

/-- A submitted link without a status gets one, and nothing else changes. -/
theorem BatchCall.get?_completed (links : List String) (found : Results) (link : String) :
    (completed links found).get? link =
      (found.get? link).or (if link ∈ links then some .notAvailable else none) := by
  induction links generalizing found with
  | nil => rw [completed, List.foldl_nil, if_neg List.not_mem_nil, Option.or_none]
  | cons first rest ih =>
      have hstep : completed (first :: rest) found = completed rest
          (if found.contains first then found else found.insert first .notAvailable) := rfl
      rw [hstep, ih]
      by_cases heq : link = first
      · subst heq
        rw [if_pos (List.mem_cons_self ..)]
        cases hfound : found.get? link with
        | some status => rw [Table.contains, hfound, Option.isSome_some, if_pos rfl, hfound]; rfl
        | none =>
            rw [Table.contains, hfound, Option.isSome_none, if_neg Bool.false_ne_true,
              Table.get?_insert, if_pos rfl]
            rfl
      · have hsame : (if found.contains first then found
            else found.insert first .notAvailable).get? link = found.get? link := by
          split
          · rfl
          · rw [Table.get?_insert, if_neg heq]
        simp only [hsame, List.mem_cons, heq, false_or]

/-! ## Batches and their checks -/

/-- Each batch that waits knows how many of its checks are not at their end, and each of these has
    its batch waiting for it. -/
structure Joined (c : Crowd World Activity) : Prop where
  kinds : ∀ (key : TaskKey) deadline stage, c.tasks[key]? ≠ some (.probe deadline stage)
  joining : ∀ (key : TaskKey) task deadline,
    c.tasks[key]? = some (.batch (.joining task deadline)) →
    ∃ p, c.shared.batches.get? key = some p ∧ p.left = c.total (Activity.checksOf key)
  parents : ∀ (key : TaskKey) parent deadline stage,
    c.tasks[key]? = some (.check parent deadline stage) → stage.isFinished = false →
    ∃ task, c.tasks[parent]? = some (.batch (.joining task deadline)) ∧ stage.link ∈ task.links

namespace Joined

variable {s : Settings} {networks : Nat → TaskKey → World → Network}
  {c : Crowd World Activity} {key : TaskKey} {a : Activity} {t : Turn World Activity}

theorem deals (h : Joined c) (can : c.CanGo (amid s networks) key a) :
    Deals (s.over (networks c.now key c.shared)) c.now key c.shared a
      ((amid s networks).step c.now key c.tasks.length c.shared a) :=
  deals_of_canGo (canGo_over can _) fun deadline stage ha => h.kinds key deadline stage (ha ▸ can.here)

/-- A batch whose checks are all at their end has none that is not. -/
theorem isFinished_of_isJoined (h : Joined c) {task : Task} {deadline : Nat}
    (hkey : c.tasks[key]? = some (.batch (.joining task deadline)))
    (joined : BatchCall.isJoined c.shared key = true) {other : TaskKey} {deadline' : Nat}
    {stage : LinkCheck} (hother : c.tasks[other]? = some (.check key deadline' stage)) :
    stage.isFinished = true := by
  obtain ⟨p, hp, hleft⟩ := h.joining key task deadline hkey
  rw [BatchCall.isJoined, hp] at joined
  have hle := Crowd.le_total (Activity.checksOf key) hother
  by_contra hgoing
  rw [Bool.not_eq_true] at hgoing
  have hone : Activity.checksOf key (.check key deadline' stage) = 1 := if_pos ⟨rfl, hgoing⟩
  have hzero : p.left = 0 := eq_of_beq joined
  omega

/-- A task that is no batch that waits has no checks that are not at their end. -/
theorem total_eq_zero (h : Joined c) (hkey : c.tasks[key]? = some a) (hnot : a.isJoining = false) :
    c.total (Activity.checksOf key) = 0 := by
  refine Crowd.total_eq_zero _ fun k b hb =>
    Activity.checksOf_eq_zero fun deadline stage hcheck => ?_
  subst hcheck
  by_contra hgoing
  rw [Bool.not_eq_true] at hgoing
  obtain ⟨task, hparent, -⟩ := h.parents k key deadline stage hb hgoing
  rw [hkey] at hparent
  cases hparent
  cases hnot

theorem after_joining (h : Joined c) (deals : Deals s c.now key c.shared a t)
    (hkey : c.tasks[key]? = some a) {k : TaskKey} {task : Task} {deadline : Nat}
    (hk : (c.after key t).tasks[k]? = some (.batch (.joining task deadline))) :
    ∃ p, t.shared.batches.get? k = some p ∧
      p.left = (c.after key t).total (Activity.checksOf k) := by
  have htotal := Crowd.total_after (t := t) (Activity.checksOf k) hkey
  rcases Crowd.getElem?_after hkey hk with ⟨rfl, htask⟩ | ⟨hne, hk⟩ | ⟨i, -, hi⟩
  · -- The batch has just started its checks, and had none before.
    obtain ⟨caller, rfl, -, hp, hstarted⟩ := deals.of_joining htask.symm
    have hzero := h.total_eq_zero hkey rfl
    refine ⟨_, hp, ?_⟩
    rw [← htask, hzero, hstarted] at htotal
    simp only [Activity.checksOf, LinkCheck.isFinished, List.map_map, Function.comp_def, and_self,
      if_true, List.map_const', List.sum_replicate_nat, Nat.mul_one, Nat.zero_add,
      Nat.add_zero] at htotal
    exact htotal.symm
  · obtain ⟨p, hp, hleft⟩ := h.joining k task deadline hk
    have hle : a.checksOf k ≤ p.left := hleft ▸ Crowd.le_total (Activity.checksOf k) hkey
    obtain ⟨p', hp', hleft'⟩ := deals.left hne hp hle
    exact ⟨p', hp', by omega⟩
  · rcases deals.started_cases (List.mem_of_getElem? hi) with
      ⟨link, task', deadline', heq, -⟩ | ⟨job, stage, heq⟩ <;> cases heq

theorem after_parents (h : Joined c) (deals : Deals s c.now key c.shared a t)
    (hkey : c.tasks[key]? = some a) {k parent : TaskKey} {deadline : Nat} {stage : LinkCheck}
    (hk : (c.after key t).tasks[k]? = some (.check parent deadline stage))
    (going : stage.isFinished = false) :
    ∃ task, (c.after key t).tasks[parent]? = some (.batch (.joining task deadline)) ∧
      stage.link ∈ task.links := by
  -- A batch that has the turn while it waits has no such check any more.
  have hold : ∀ {k : TaskKey} {before : LinkCheck},
      c.tasks[k]? = some (.check parent deadline before) → before.isFinished = false →
      ∃ task, (c.after key t).tasks[parent]? = some (.batch (.joining task deadline)) ∧
        before.link ∈ task.links := by
    intro k before hcheck hgoing
    obtain ⟨task, hparent, hlink⟩ := h.parents k parent deadline before hcheck hgoing
    refine ⟨task, Crowd.getElem?_after_of_ne (fun hself => ?_) hparent, hlink⟩
    subst hself
    obtain rfl := Option.some.inj (hkey.symm.trans hparent)
    have hend := h.isFinished_of_isJoined hparent (deals.isJoined rfl) hcheck
    rw [hgoing] at hend
    cases hend
  rcases Crowd.getElem?_after hkey hk with ⟨rfl, htask⟩ | ⟨-, hk⟩ | ⟨i, -, hi⟩
  · obtain ⟨before, rfl, hbefore, hlink⟩ := deals.of_check htask.symm going
    rw [← hlink]
    exact hold hkey hbefore
  · exact hold hk going
  · rcases deals.started_cases (List.mem_of_getElem? hi) with
      ⟨link, task, deadline', heq, htask, hlink⟩ | ⟨job, stage, heq⟩
    · cases heq
      exact ⟨task, htask ▸ Crowd.getElem?_after_self hkey, hlink⟩
    · cases heq

/-- Turns leave batches and their checks in order. -/
theorem after (h : Joined c) (deals : Deals s c.now key c.shared a t)
    (hkey : c.tasks[key]? = some a) : Joined (c.after key t) where
  kinds k deadline stage hk := by
    have hprobe := deals.isLooking fun deadline stage ha =>
      h.kinds key deadline stage (ha ▸ hkey)
    rcases Crowd.getElem?_after hkey hk with ⟨-, htask⟩ | ⟨-, hk⟩ | ⟨i, -, hi⟩
    · exact hprobe.1 deadline stage htask.symm
    · exact h.kinds k deadline stage hk
    · exact hprobe.2 _ (List.mem_of_getElem? hi) deadline stage rfl
  joining _ _ _ hk := h.after_joining deals hkey hk
  parents _ _ _ _ hk going := h.after_parents deals hkey hk going

/-- Callers come in order. -/
theorem call (h : Joined c) (asked : Requested a) : Joined (c.call a) where
  kinds k deadline stage hk := by
    rcases Crowd.getElem?_call hk with ⟨-, rfl⟩ | hk
    · cases asked
    · exact h.kinds k deadline stage hk
  joining k task deadline hk := by
    have hzero : a.checksOf k = 0 := by cases asked <;> rfl
    rcases Crowd.getElem?_call hk with ⟨-, rfl⟩ | hk
    · cases asked
    · obtain ⟨p, hp, hleft⟩ := h.joining k task deadline hk
      refine ⟨p, hp, ?_⟩
      rw [Crowd.total_call, hzero]
      exact hleft
  parents k parent deadline stage hk going := by
    rcases Crowd.getElem?_call hk with ⟨-, rfl⟩ | hk
    · cases asked
    · obtain ⟨task, hparent, hlink⟩ := h.parents k parent deadline stage hk going
      exact ⟨task, Crowd.getElem?_call_of_some hparent, hlink⟩

/-- Idle workers are in order. -/
theorem first (w : World) : Joined w.crowd where
  kinds k deadline stage hk := by cases World.eq_idle_of_crowd hk
  joining k task deadline hk := by cases World.eq_idle_of_crowd hk
  parents k parent deadline stage hk := by cases World.eq_idle_of_crowd hk

/-- In every run, batches and their checks stay in order. -/
theorem of_run {w : World} {pace : Crowd World Activity → Nat → Prop} {n : Nat}
    (run : Crowd.Run (amid s networks) pace Requested w.crowd n c) : Joined c := by
  induction run with
  | begin => exact first w
  | turn run can ih => exact ih.after (ih.deals can) can.here
  | await run le may ih => exact ⟨ih.kinds, ih.joining, ih.parents⟩
  | call run may ih => exact ih.call may

end Joined

/-! ## The turns of a probing check -/

section Probing

variable {s : Settings} {networks : Nat → TaskKey → World → Network} {c : Crowd World Activity}
  {key parent : TaskKey} {deadline : Nat} {link : String} {stage : Probe.Stage}

theorem canGo_probing (hkey : c.tasks[key]? = some (.check parent deadline (.probing link stage)))
    (ready : stage.wait c.now deadline = .nothing) :
    c.CanGo (amid s networks) key (.check parent deadline (.probing link stage)) :=
  ⟨hkey, rfl, .inl ready⟩

/-- A check that probes does what its probe does. -/
theorem step_probing (going : stage.status? = none) {scene : Probe.Scene} {stage' : Probe.Stage}
    (hstep : Probe.step (s.over (networks c.now key c.shared)).probe c.now deadline c.shared.scene
      stage = (scene, stage')) :
    (amid s networks).step c.now key c.tasks.length c.shared
        (.check parent deadline (.probing link stage))
      = ⟨{ c.shared with scene }, .check parent deadline (.probing link stage'), []⟩ := by
  simp only [amid, Activity.step, LinkCheck.step, going, hstep]

theorem turn_probing (hkey : c.tasks[key]? = some (.check parent deadline (.probing link stage)))
    (going : stage.status? = none) {scene : Probe.Scene} {stage' : Probe.Stage}
    (hstep : Probe.step (s.over (networks c.now key c.shared)).probe c.now deadline c.shared.scene
      stage = (scene, stage')) :
    (c.turn (amid s networks) key (.check parent deadline (.probing link stage))).tasks[key]?
        = some (.check parent deadline (.probing link stage')) ∧
      (c.turn (amid s networks) key (.check parent deadline (.probing link stage))).shared
        = { c.shared with scene } := by
  rw [Crowd.turn, step_probing going hstep]
  exact ⟨Crowd.getElem?_after_self hkey, rfl⟩

end Probing

/-! ## Checks to look at -/

/-- The link and the deadline of a check that is about to look at its link, and its batch. -/
def Activity.looking? : Activity → Option (TaskKey × Nat × String)
  | check parent deadline (.probing link (.fresh link')) =>
    if link' = link then some (parent, deadline, link) else none
  | _ => none

theorem Activity.eq_of_looking? {a : Activity} {parent : TaskKey} {deadline : Nat} {link : String}
    (h : a.looking? = some (parent, deadline, link)) :
    a = .check parent deadline (.probing link (.fresh link)) := by
  unfold looking? at h
  split at h
  · split at h
    · next heq =>
      cases h
      rw [heq]
    · cases h
  · cases h

/-- A network that stays the same, and on which names are looked up in 5 ms. -/
def sampleNetworks (_ : Nat) (_ : TaskKey) (_ : World) : Network :=
  Probe.Course.sampleSetting.network

theorem eq_sampleScene {scene : Probe.Scene} (traffic : scene.traffic = .none)
    (circuits : scene.circuits = .empty) (clock : scene.clock = .ofKind .manual) :
    scene = Probe.Course.sampleScene := by
  calc scene = ⟨scene.traffic, scene.circuits, scene.clock⟩ := rfl
    _ = Probe.Course.sampleScene := by rw [traffic, circuits, clock]; rfl

/-- Two copies of a link with one permit between them: the first check is about to look at it, the
    second one is in line. -/
theorem sample_looks {pace : Crowd World Activity → Nat → Prop} : ∃ n c,
    Crowd.Run (amid sampleSettings sampleNetworks) pace Requested sampleCrowd n c ∧ c.now = 0 ∧
      c.shared.scene = Probe.Course.sampleScene ∧ c.shared.permits = ⟨0, [2], [3]⟩ ∧
      c.tasks.length = 4 ∧
      c.tasks[2]? = some (.check 1 5000 (.probing "." (.fresh "."))) := by
  have hplay : ((sampleCrowd.call (.batch (.start [".", "."] none))).play?
      (amid sampleSettings sampleNetworks) [1, 1, 1, 1, 1, 2, 3, 2]).any (fun c =>
        decide (c.now = 0 ∧ c.shared.scene.traffic = .none ∧ c.shared.scene.circuits = .empty ∧
          c.shared.scene.clock = .ofKind .manual ∧ c.shared.permits = ⟨0, [2], [3]⟩ ∧
          c.tasks.length = 4 ∧
          c.tasks[2]?.bind Activity.looking? = some (1, 5000, "."))) = true := by
    decide +kernel
  obtain ⟨c, hc, h⟩ := (Option.any_eq_true _ _).1 hplay
  obtain ⟨hnow, htraffic, hcircuits, hclock, hpermits, hlength, hlooking⟩ := of_decide_eq_true h
  obtain ⟨n, run⟩ := (Crowd.Run.begin.call (Requested.check _ _)).play? hc
  obtain ⟨a, ha, hlooking⟩ := Option.bind_eq_some_iff.1 hlooking
  exact ⟨n, c, run, hnow, eq_sampleScene htraffic hcircuits hclock, hpermits, hlength,
    ha.trans (congrArg some (Activity.eq_of_looking? hlooking))⟩

/-- Whom the checks of that link ask. -/
def sampleTarget : Probe.Target := ⟨"https://./".toList, "."⟩

/-- A probe of that link looks its name up. -/
theorem step_root {network : Network} {answer : Guard.Answer} {delay : Option Nat}
    (hlookup : network.lookup "." = ⟨answer, delay⟩) (now deadline : Nat) (scene : Probe.Scene) :
    Probe.step (sampleSettings.over network).probe now deadline scene (.fresh ".")
      = ({ scene with traffic := scene.traffic.addLookup "." },
          .lookingUp sampleTarget answer (delay.map (now + ·))) := by
  rw [Probe.step, Probe.begin, Probe.Course.candidate?_root]
  show (_, Probe.Stage.lookingUp _ (network.lookup ".").value ((network.lookup ".").finish now)) = _
  rw [hlookup]
  rfl

/-- The check of that link when the name has been looked up. -/
def sampleAnswered : Activity :=
  .check 1 5000 (.probing "." (.lookingUp sampleTarget (.ok [.v4 (Address.ofOctets 8 8 8 8)])
    (some 5)))

/-- The first check has its answer, and its next turn is to make a request. -/
theorem sample_answered : ∃ n c,
    Crowd.Run (amid sampleSettings sampleNetworks) Crowd.anyTime Requested sampleCrowd n c ∧
      c.shared.permits = ⟨0, [2], [3]⟩ ∧ c.shared.scene.traffic.calls = [] ∧
      c.CanGo (amid sampleSettings sampleNetworks) 2 sampleAnswered ∧
      ∃ scene left outcome finish,
        (amid sampleSettings sampleNetworks).step c.now 2 c.tasks.length c.shared sampleAnswered
          = ⟨{ c.shared with scene },
              .check 1 5000 (.probing "." (.requesting sampleTarget left outcome finish)), []⟩ ∧
        scene.traffic.calls = [⟨5, ".", "https://./".toList⟩] := by
  obtain ⟨n, c, run, hnow, hscene, hpermits, hlength, hlooks⟩ :=
    @sample_looks Crowd.anyTime
  have hbegin : Probe.step (sampleSettings.over (sampleNetworks c.now 2 c.shared)).probe c.now 5000
      c.shared.scene (.fresh ".")
      = ({ Probe.Course.sampleScene with traffic := Traffic.none.addLookup "." },
          .lookingUp sampleTarget (.ok [.v4 (Address.ofOctets 8 8 8 8)]) (some 5)) := by
    rw [step_root rfl, hnow, hscene]
    rfl
  obtain ⟨htask, hshared⟩ := turn_probing hlooks rfl hbegin
  have hle : c.now ≤ 5 := by
    rw [hnow]
    exact Nat.zero_le 5
  have run' := Crowd.Run.await (run.turn (canGo_probing hlooks rfl)) hle
    (show Crowd.anyTime _ 5 from trivial)
  have hask : Probe.step (sampleSettings.over Probe.Course.sampleSetting.network).probe 5 5000
      (c.turn (amid sampleSettings sampleNetworks) 2
        (.check 1 5000 (.probing "." (.fresh ".")))).shared.scene
      (.lookingUp sampleTarget (.ok [.v4 (Address.ofOctets 8 8 8 8)]) (some 5))
      = ({ Probe.Course.sampleScene with
            traffic := (Traffic.none.addLookup ".").addCall ⟨5, ".", "https://./".toList⟩ },
          .requesting sampleTarget Probe.pauses (.ok 503) (some 15)) := by
    rw [hshared]
    rfl
  refine ⟨_, _, run', ?_, ?_, canGo_probing htask rfl, _, _, _, _, step_probing rfl hask, rfl⟩
  · show (c.turn _ 2 _).shared.permits = _
    rw [hshared, hpermits]
  · show (c.turn _ 2 _).shared.scene.traffic.calls = _
    rw [hshared]
    rfl

end Reachability.Engine
