import Reachability.Proofs.Engine.Turns
import Reachability.Proofs.Permits

set_option autoImplicit false

/-! # Who belongs to whom

Each check belongs to a batch whose task was created, and each job to a batch that could not store
its result. The batch waits for as many checks as are not at their end, callers that wait for all
jobs wait for as many as there are, and the lock of the jobs is with one member of the crowd.
`Ordered` says so of a whole crowd; every turn keeps it (`Ordered.after`). -/

namespace Reachability.Engine

/-! ## The members of a crowd -/

namespace BatchCall

/-- What has come of the creation of a task for a batch, once it is known. -/
def created? : BatchCall → Option (Except StoreError TaskId)
  | creating _ (.answered (.ok (.task task))) => some (.ok task.id)
  | creating _ (.answered (.error e)) => some (.error e)
  | joining task _ => some (.ok task.id)
  | updating task _ _ => some (.ok task.id)
  | submitting task _ => some (.ok task.id)
  | finished answer => some (answer.map Outcome.id)
  | crashed task => some (.ok task.id)
  | _ => none

/-- Whether the checks of a batch have been started. -/
def isStarted : BatchCall → Bool
  | joining .. => true
  | updating .. => true
  | submitting .. => true
  | finished (.ok _) => true
  | _ => false

/-- Checks are started only for a task that was created. -/
theorem created?_of_isStarted {stage : BatchCall} (h : stage.isStarted = true) :
    ∃ id, stage.created? = some (.ok id) := by
  cases stage with
  | creating => cases h
  | finished answer =>
      cases answer with
      | ok o => exact ⟨o.id, rfl⟩
      | error e => cases h
  | crashed task => cases h
  | _ => exact ⟨_, rfl⟩

end BatchCall

namespace Activity

/-- What becomes of a member of a crowd: it stays what it is, and a batch keeps its task. -/
inductive Becomes : Activity → Activity → Prop where
  | check {parent : TaskKey} {deadline : Nat} {stage stage' : LinkCheck} :
      Becomes (.check parent deadline stage) (.check parent deadline stage')
  | batch {stage stage' : BatchCall}
      (created : ∀ v, stage.created? = some v → stage'.created? = some v)
      (started : stage.isStarted = true → stage'.isStarted = true)
      (going : ∀ answer, stage ≠ .finished answer) : Becomes (.batch stage) (.batch stage')
  | retry {job : RetryJob} {stage stage' : Retry} :
      Becomes (.retry job stage) (.retry job stage')
  | drain {stage stage' : Drain} : Becomes (.drain stage) (.drain stage')
  | worker {stage stage' : ReportWorker} (kind : isOfBatches (.worker stage') = true) :
      Becomes (.worker stage) (.worker stage')

/-- Whether a member of a crowd has the lock of the jobs or waits for it. -/
def queues : Activity → Bool
  | batch (.submitting ..) => true
  | drain .inLine => true
  | drain .waiting => true
  | _ => false

/-- Whether a member of a crowd keeps the lock of the jobs until all of them are at their end. -/
def blocks : Activity → Bool
  | drain .waiting => true
  | _ => false

theorem queues_of_blocks {a : Activity} (h : a.blocks = true) : a.queues = true := by
  unfold blocks at h
  split at h
  · rfl
  · cases h

theorem queues_cases {a : Activity} (h : a.queues = true) :
    (∃ task results, a = .batch (.submitting task results)) ∨ a = .drain .inLine ∨
      a = .drain .waiting := by
  unfold queues at h
  split at h
  · exact .inl ⟨_, _, rfl⟩
  · exact .inr (.inl rfl)
  · exact .inr (.inr rfl)
  · cases h

/-- Whether a member is a job that is not at its end, as a number. -/
def jobs : Activity → Nat
  | retry _ (.trying ..) => 1
  | retry _ (.pausing ..) => 1
  | _ => 0

/-- Whether a member is a check of a batch that is not at its end, as a number. -/
def checksOf (batch : TaskKey) : Activity → Nat
  | check parent _ stage => if parent = batch ∧ stage.isFinished = false then 1 else 0
  | _ => 0

theorem jobs_eq_zero {a : Activity} (h : ∀ job stage, a = .retry job stage → stage = .finished) :
    a.jobs = 0 := by
  cases a with
  | retry job stage =>
      rw [h job stage rfl]
      rfl
  | _ => rfl

theorem checksOf_eq_zero {a : Activity} {batch : TaskKey}
    (h : ∀ deadline stage, a = .check batch deadline stage → stage.isFinished = true) :
    a.checksOf batch = 0 := by
  cases a with
  | check parent deadline stage =>
      refine if_neg fun hboth => ?_
      obtain ⟨rfl, hgoing⟩ := hboth
      rw [h deadline stage rfl] at hgoing
      cases hgoing
  | _ => rfl

theorem Becomes.of_batch {stage : BatchCall} {b : Activity} (h : (Activity.batch stage).Becomes b) :
    ∃ stage', b = .batch stage' ∧ (∀ v, stage.created? = some v → stage'.created? = some v) ∧
      (stage.isStarted = true → stage'.isStarted = true) ∧ ∀ answer, stage ≠ .finished answer := by
  cases h with
  | batch created started going => exact ⟨_, rfl, created, started, going⟩

theorem Becomes.to_batch {stage : BatchCall} {a : Activity} (h : a.Becomes (.batch stage)) :
    ∃ stage', a = .batch stage' := by
  cases h with
  | batch => exact ⟨_, rfl⟩

theorem Becomes.of_retry {job : RetryJob} {stage : Retry} {b : Activity}
    (h : (Activity.retry job stage).Becomes b) : ∃ stage', b = .retry job stage' := by
  cases h with
  | retry => exact ⟨_, rfl⟩

theorem Becomes.to_retry {job : RetryJob} {stage : Retry} {a : Activity}
    (h : a.Becomes (.retry job stage)) : ∃ stage', a = .retry job stage' := by
  cases h with
  | retry => exact ⟨_, rfl⟩

theorem Becomes.to_check {parent : TaskKey} {deadline : Nat} {stage : LinkCheck} {a : Activity}
    (h : a.Becomes (.check parent deadline stage)) :
    ∃ stage', a = .check parent deadline stage' := by
  cases h with
  | check => exact ⟨_, rfl⟩

theorem Becomes.isOfBatches {a b : Activity} (h : a.Becomes b) : b.isOfBatches = true := by
  cases h with
  | worker kind => exact kind
  | _ => rfl

end Activity

section Turns

variable {s : Settings} {now : Nat} {key : TaskKey} {w : World} {a : Activity}
  {t : Turn World Activity}

theorem Turns.becomes (h : Turns s now key w a t) : a.Becomes t.task := by
  cases h with
  | @visits visit visit' service visiting going ready moves =>
      cases Activity.calls_of_visit? visiting with
      | creating caller =>
          refine .batch (fun id hid => ?_) nofun nofun
          cases visit with
          | answered answer => cases going
          | _ => cases hid
      | updating task results => exact .batch (fun _ hid => hid) (fun _ => rfl) nofun
      | trying job left backoff => exact .retry
  | plain h =>
      cases h with
      | launched deadline => exact .batch (fun _ hid => hid) (fun _ => rfl) nofun
      | crashed late => exact .batch (fun _ hid => hid) nofun nofun
      | rejected => exact .batch (fun _ hid => hid) nofun nofun
      | gathered joined results => exact .batch (fun _ hid => hid) (fun _ => rfl) nofun
      | stored => exact .batch (fun _ hid => hid) (fun _ => rfl) nofun
      | deferred => exact .batch (fun _ hid => hid) (fun _ => rfl) nofun
      | submitted ready => exact .batch (fun _ hid => hid) (fun _ => rfl) nofun
      | succeeded settled => exact .retry
      | gaveUp last settled => exact .retry
      | paused more => exact .retry
      | retried => exact .retry
      | checked going nearer clock => exact .check
      | reported going => exact .check
      | asked => exact .drain
      | admitted ready => exact .drain
      | drained idle => exact .drain
      | worked kind nearer => exact .worker kind

/-- What a turn starts: the checks of a batch, or the job of a batch that could not store its
    result. -/
theorem Turns.started_cases (h : Turns s now key w a t) {b : Activity} (hb : b ∈ t.started) :
    (∃ deadline link task deadline', b = .check key deadline (.fresh link) ∧
        t.task = .batch (.joining task deadline')) ∨
      ∃ job stage, b = .retry job stage ∧
        t.task = .batch (.finished (.ok ⟨job.id, job.result, true⟩)) := by
  cases h with
  | visits => cases hb
  | plain h =>
      cases h with
      | launched deadline =>
          obtain ⟨link, -, rfl⟩ := List.mem_map.1 hb
          exact .inl ⟨_, link, _, _, rfl, rfl⟩
      | submitted ready =>
          obtain rfl := List.mem_singleton.1 hb
          exact .inr ⟨_, _, rfl, rfl⟩
      | _ => cases hb

/-- No batch is started but by a caller. -/
theorem Turns.started_ne_batch (h : Turns s now key w a t) {b : Activity} (hb : b ∈ t.started)
    (stage : BatchCall) : b ≠ .batch stage := by
  rintro rfl
  rcases h.started_cases hb with ⟨_, _, _, _, heq, -⟩ | ⟨_, _, heq, -⟩ <;> cases heq

/-- A batch that leaves the storing of its result to a job starts that job. -/
theorem Turns.started_of_deferred (h : Turns s now key w a t) {o : Outcome}
    (htask : t.task = .batch (.finished (.ok o))) (hdeferred : o.deferred = true) :
    ∃ stage, t.started = [.retry ⟨o.id, o.results⟩ stage] := by
  cases h with
  | @visits visit visit' service visiting going ready moves =>
      cases Activity.calls_of_visit? visiting <;> cases htask
  | plain h =>
      cases h with
      | stored =>
          cases htask
          cases hdeferred
      | submitted ready =>
          cases htask
          exact ⟨_, rfl⟩
      | _ => cases htask

/-! ## The lock and the number of the jobs -/

theorem Turns.quiet (h : Turns s now key w a t) :
    t.shared.reports.jobs = w.reports.jobs := by
  cases h with
  | visits => rfl
  | plain h =>
      cases h with
      | reported =>
          simp only [LinkCheck.report]
          split <;> rfl
      | _ => rfl

/-- What a turn does to the lock of the jobs. -/
theorem Turns.passes (h : Turns s now key w a t)
    (blocks : a.blocks = true → w.retries.lock.holds key = true) :
    w.retries.lock.Passes key (a.queues = true) (t.task.queues = true) (t.task.blocks = true)
      t.shared.retries.lock := by
  cases h with
  | @visits visit visit' service visiting going ready moves =>
      cases Activity.calls_of_visit? visiting <;>
        exact .outside Bool.false_ne_true Bool.false_ne_true
  | plain h =>
      cases h with
      | deferred => exact .enters Bool.false_ne_true rfl Bool.false_ne_true
      | asked => exact .enters Bool.false_ne_true rfl Bool.false_ne_true
      | submitted ready => exact .leaves rfl Bool.false_ne_true ready
      | drained idle => exact .leaves rfl Bool.false_ne_true (blocks rfl)
      | admitted ready => exact .inside rfl rfl ready
      | reported =>
          have hsame : ∀ parent link status (w : World),
              (LinkCheck.report parent link status w).retries = w.retries := by
            intro parent link status w
            simp only [LinkCheck.report]
            split <;> rfl
          rw [hsame]
          exact .outside Bool.false_ne_true Bool.false_ne_true
      | _ => exact .outside Bool.false_ne_true Bool.false_ne_true

/-- The number of the jobs goes up with each that starts and down with each that ends. -/
theorem Turns.running (h : Turns s now key w a t) (hle : a.jobs ≤ w.retries.running) :
    t.shared.retries.running + a.jobs
      = w.retries.running + t.task.jobs + (t.started.map Activity.jobs).sum := by
  cases h with
  | @visits visit visit' service visiting going ready moves =>
      cases Activity.calls_of_visit? visiting <;> rfl
  | plain h =>
      cases h with
      | launched deadline =>
          simp [Activity.jobs, Function.comp_def]
      | succeeded settled => exact Nat.sub_add_cancel hle
      | gaveUp last settled => exact Nat.sub_add_cancel hle
      | reported =>
          simp only [LinkCheck.report]
          split <;> rfl
      | _ => rfl

/-! ## The number of the checks -/

/-- A batch that begins to wait for its checks has just started them. -/
theorem Turns.joining (h : Turns s now key w a t) {task : Task} {deadline : Nat}
    (htask : t.task = .batch (.joining task deadline)) :
    (∃ stage, a = .batch stage ∧ stage.isStarted = false) ∧
      ∃ p, t.shared.batches.get? key = some p ∧
        p.left = (t.started.map (Activity.checksOf key)).sum := by
  cases h with
  | @visits visit visit' service visiting going ready moves =>
      cases Activity.calls_of_visit? visiting <;> cases htask
  | plain h =>
      cases h with
      | @launched caller task deadline =>
          refine ⟨⟨_, rfl, rfl⟩, ⟨.empty, task.links.length⟩, ?_, ?_⟩
          · rw [Table.get?_insert, if_pos rfl]
          · simp [Activity.checksOf, LinkCheck.isFinished, Function.comp_def]
      | _ => cases htask

/-- A batch that waits for its checks knows how many there are, as far as others have the turn. -/
theorem Turns.left (h : Turns s now key w a t) {batch : TaskKey} (hne : batch ≠ key) {p : Progress}
    (hp : w.batches.get? batch = some p) (hle : a.checksOf batch ≤ p.left) :
    ∃ p', t.shared.batches.get? batch = some p' ∧ p'.left + a.checksOf batch
      = p.left + t.task.checksOf batch + (t.started.map (Activity.checksOf batch)).sum := by
  cases h with
  | @visits visit visit' service visiting going ready moves =>
      cases Activity.calls_of_visit? visiting <;> exact ⟨p, hp, rfl⟩
  | plain h =>
      cases h with
      | launched deadline =>
          refine ⟨p, ?_, ?_⟩
          · rw [Table.get?_insert, if_neg hne, hp]
          · simp [Activity.checksOf, Function.comp_def, Ne.symm hne]
      | gathered joined results =>
          refine ⟨p, ?_, rfl⟩
          rw [Table.get?_erase, if_neg hne, hp]
      | @checked parent deadline stage stage' scene permits going nearer clock =>
          have hgoing : stage.isFinished = false := by
            cases stage with
            | finished link status => cases nearer
            | _ => rfl
          refine ⟨p, hp, ?_⟩
          simp only [Activity.checksOf, hgoing, going, List.map_nil, List.sum_nil]
          rfl
      | @reported parent deadline stage link status permits going =>
          by_cases hparent : parent = batch
          · subst hparent
            have hone : Activity.checksOf parent (.check parent deadline stage) = 1 :=
              if_pos ⟨rfl, going⟩
            have hzero : Activity.checksOf parent (.check parent deadline (.finished link status))
                = 0 := if_neg fun hboth => nomatch hboth.2
            rw [hone] at hle ⊢
            refine ⟨⟨p.results.insert link status, p.left - 1⟩, ?_, ?_⟩
            · simp only [LinkCheck.report, hp]
              rw [Table.get?_insert, if_pos rfl]
            · rw [hzero]
              exact Nat.sub_add_cancel hle
          · have hzero : ∀ stage, Activity.checksOf batch (.check parent deadline stage) = 0 :=
              fun stage => if_neg fun hboth => hparent hboth.1
            refine ⟨p, ?_, by rw [hzero, hzero]; rfl⟩
            simp only [LinkCheck.report]
            split
            · rw [Table.get?_insert, if_neg (Ne.symm hparent)]
              exact hp
            · exact hp
      | _ => exact ⟨p, hp, rfl⟩

end Turns

/-! ## The lock in a crowd -/

/-- A lock serves the members of a crowd that want it, and those that own it have it. -/
abbrev Guards (wants owns : Activity → Bool) (lock : Permits) (c : Crowd World Activity) : Prop :=
  lock.Guards (fun key => (c.tasks[key]?).any wants = true)
    fun key => (c.tasks[key]?).any owns = true

namespace Guards

variable {wants owns : Activity → Bool} {lock lock' : Permits} {c : Crowd World Activity}
  {key : TaskKey} {a : Activity} {t : Turn World Activity}

/-- A member that passes the lock in its turn leaves it in order. -/
theorem after (h : Guards wants owns lock c) (needs : ∀ a, owns a = true → wants a = true)
    (hkey : c.tasks[key]? = some a)
    (passes : (owns a = true → lock.holds key = true) →
      lock.Passes key (wants a = true) (wants t.task = true) (owns t.task = true) lock')
    (started : ∀ b ∈ t.started, wants b = false) : Guards wants owns lock' (c.after key t) := by
  have hidle : ∀ b ∈ t.started, owns b = false := fun b hb =>
    Bool.eq_false_iff.2 fun howns => Bool.eq_false_iff.1 (started b hb) (needs b howns)
  have hholds : owns a = true → lock.holds key = true := fun hb =>
    h.holds key (by rw [hkey, Option.any_some, hb])
  refine h.step key ?_ (fun hb => ?_) fun other hne => ?_
  · rw [hkey, Crowd.getElem?_after_self hkey]
    exact passes hholds
  · rw [Crowd.getElem?_after_self hkey, Option.any_some] at hb ⊢
    exact needs t.task hb
  · rw [Crowd.any_after _ hne started, Crowd.any_after _ hne hidle]
    exact ⟨Iff.rfl, id⟩

/-- Who comes does not want the lock yet. -/
theorem call (h : Guards wants owns lock c) (needs : ∀ a, owns a = true → wants a = true)
    (fresh : wants a = false) : Guards wants owns lock (c.call a) := by
  have hidle : owns a = false :=
    Bool.eq_false_iff.2 fun howns => Bool.eq_false_iff.1 fresh (needs a howns)
  refine h.congr (fun k => ?_) fun k hk => ?_
  · rw [Crowd.any_call _ fresh]
  · rwa [Crowd.any_call _ hidle] at hk

/-- Nobody wants the lock at first. -/
theorem first (w : World) (hwants : wants (.worker .idle) = false)
    (howns : owns (.worker .idle) = false) : Guards wants owns .lock w.crowd := by
  have hnone : ∀ {P : Activity → Bool}, P (.worker .idle) = false → ∀ k : TaskKey,
      (w.crowd.tasks[k]?).any P = false := by
    intro P hP k
    cases hk : w.crowd.tasks[k]? with
    | none => rfl
    | some b => rw [Option.any_some, World.eq_idle_of_crowd hk, hP]
  refine ⟨rfl, (Permits.serves_ofNat 1).congr fun k => ?_, fun k hk => ?_⟩
  · rw [hnone hwants]
    exact ⟨False.elim, nofun⟩
  · rw [hnone howns] at hk
    cases hk

end Guards

/-- The lock of the jobs serves the members that have it or wait for it, and those that keep it have
    it. -/
abbrev GuardsJobs (lock : Permits) (c : Crowd World Activity) : Prop :=
  Guards Activity.queues Activity.blocks lock c

namespace GuardsJobs

variable {lock lock' : Permits} {c : Crowd World Activity} {key : TaskKey} {a : Activity}
  {t : Turn World Activity}

/-- A member that passes the lock in its turn leaves it in order. -/
theorem after (h : GuardsJobs lock c) (hkey : c.tasks[key]? = some a)
    (passes : (a.blocks = true → lock.holds key = true) →
      lock.Passes key (a.queues = true) (t.task.queues = true) (t.task.blocks = true) lock')
    (started : ∀ b ∈ t.started, b.queues = false) : GuardsJobs lock' (c.after key t) :=
  Guards.after h (fun _ => Activity.queues_of_blocks) hkey passes started

/-- Who comes does not want the lock yet. -/
theorem call (h : GuardsJobs lock c) (fresh : a.queues = false) : GuardsJobs lock (c.call a) :=
  Guards.call h (fun _ => Activity.queues_of_blocks) fresh

/-- Nobody wants the lock at first. -/
theorem first (w : World) : GuardsJobs .lock w.crowd := Guards.first w rfl rfl

end GuardsJobs

/-! ## The whole crowd -/

/-- Who belongs to whom in a crowd. -/
structure Ordered (c : Crowd World Activity) : Prop where
  kinds : ∀ (key : TaskKey) a, c.tasks[key]? = some a → a.isOfBatches = true
  quiet : c.shared.reports.jobs = []
  lock : c.shared.retries.lock.Guards (fun key => (c.tasks[key]?).any Activity.queues = true)
    fun key => (c.tasks[key]?).any Activity.blocks = true
  running : c.shared.retries.running = c.total Activity.jobs
  joining : ∀ (key : TaskKey) task deadline,
    c.tasks[key]? = some (.batch (.joining task deadline)) →
    ∃ p, c.shared.batches.get? key = some p ∧ p.left = c.total (Activity.checksOf key)
  parents : ∀ (key : TaskKey) parent deadline stage,
    c.tasks[key]? = some (.check parent deadline stage) →
    ∃ stage, c.tasks[parent]? = some (.batch stage) ∧ stage.isStarted = true
  origins : ∀ (key : TaskKey) job stage, c.tasks[key]? = some (.retry job stage) →
    ∃ key' : TaskKey, c.tasks[key']? = some (.batch (.finished (.ok ⟨job.id, job.result, true⟩)))
  jobs : ∀ (key : TaskKey) o, c.tasks[key]? = some (.batch (.finished (.ok o))) →
    o.deferred = true → ∃ (key' : TaskKey) (stage : Retry),
      c.tasks[key']? = some (.retry ⟨o.id, o.results⟩ stage)

namespace Ordered

variable {s : Settings} {c : Crowd World Activity} {key : TaskKey} {a : Activity}
  {t : Turn World Activity}

/-- A member that is at its end is still there after a turn of another one. -/
theorem after_finished (turns : Turns s c.now key c.shared a t) (hkey : c.tasks[key]? = some a)
    {k : TaskKey} {answer : Except StoreError Outcome}
    (h : c.tasks[k]? = some (.batch (.finished answer))) :
    (c.after key t).tasks[k]? = some (.batch (.finished answer)) := by
  refine Crowd.getElem?_after_of_ne ?_ h
  rintro rfl
  rw [hkey] at h
  cases h
  obtain ⟨-, -, -, -, hgoing⟩ := turns.becomes.of_batch
  exact hgoing answer rfl

theorem after_jobs (h : Ordered c) (turns : Turns s c.now key c.shared a t)
    (hkey : c.tasks[key]? = some a) :
    t.shared.retries.running = (c.after key t).total Activity.jobs := by
  have htotal := Crowd.total_after (t := t) Activity.jobs hkey
  have hle : a.jobs ≤ c.shared.retries.running := h.running ▸ Crowd.le_total Activity.jobs hkey
  have hrunning := turns.running hle
  have := h.running
  omega

/-- When no job is left, all jobs are at their end. -/
theorem ended_of_idle (h : Ordered c) (idle : c.shared.retries.running = 0) {job : RetryJob}
    {stage : Retry} (hkey : c.tasks[key]? = some (.retry job stage)) : stage = .finished := by
  have hle := Crowd.le_total Activity.jobs hkey
  rw [← h.running, idle] at hle
  cases stage with
  | finished => rfl
  | trying => cases hle
  | pausing => cases hle

/-- A batch has no checks before its task is created. -/
theorem total_checksOf_eq_zero (h : Ordered c) {stage : BatchCall}
    (hkey : c.tasks[key]? = some (.batch stage)) (hstarted : stage.isStarted = false) :
    c.total (Activity.checksOf key) = 0 := by
  refine Crowd.total_eq_zero _ fun k a ha =>
    Activity.checksOf_eq_zero fun deadline check hcheck => ?_
  obtain ⟨stage', hparent, hstarted'⟩ := h.parents k key deadline check (hcheck ▸ ha)
  rw [hkey] at hparent
  cases hparent
  rw [hstarted] at hstarted'
  cases hstarted'

/-- A batch stays in its place, and its checks have been started. -/
theorem after_batch (turns : Turns s c.now key c.shared a t) (hkey : c.tasks[key]? = some a)
    {k : TaskKey} {stage : BatchCall} (hk : c.tasks[k]? = some (.batch stage)) :
    ∃ stage', (c.after key t).tasks[k]? = some (.batch stage') ∧
      (stage.isStarted = true → stage'.isStarted = true) := by
  by_cases hne : k = key
  · subst hne
    rw [hkey] at hk
    cases hk
    obtain ⟨stage', htask, -, hstarted, -⟩ := turns.becomes.of_batch
    exact ⟨stage', htask ▸ Crowd.getElem?_after_self hkey, hstarted⟩
  · exact ⟨stage, Crowd.getElem?_after_of_ne hne hk, id⟩

/-- A job stays in its place. -/
theorem after_job (turns : Turns s c.now key c.shared a t) (hkey : c.tasks[key]? = some a)
    {k : TaskKey} {job : RetryJob} {stage : Retry} (hk : c.tasks[k]? = some (.retry job stage)) :
    ∃ stage', (c.after key t).tasks[k]? = some (.retry job stage') := by
  by_cases hne : k = key
  · subst hne
    rw [hkey] at hk
    cases hk
    obtain ⟨stage', htask⟩ := turns.becomes.of_retry
    exact ⟨stage', htask ▸ Crowd.getElem?_after_self hkey⟩
  · exact ⟨stage, Crowd.getElem?_after_of_ne hne hk⟩

theorem after_lock (h : Ordered c) (turns : Turns s c.now key c.shared a t)
    (hkey : c.tasks[key]? = some a) : GuardsJobs t.shared.retries.lock (c.after key t) := by
  refine GuardsJobs.after h.lock hkey turns.passes fun b hb => ?_
  rcases turns.started_cases hb with ⟨_, _, _, _, rfl, -⟩ | ⟨_, _, rfl, -⟩ <;> rfl

/-- After a turn, too, a batch that waits for its checks knows how many there are. -/
theorem after_joining (h : Ordered c) (turns : Turns s c.now key c.shared a t)
    (hkey : c.tasks[key]? = some a) {k : TaskKey} {task : Task} {deadline : Nat}
    (hk : (c.after key t).tasks[k]? = some (.batch (.joining task deadline))) :
    ∃ p, t.shared.batches.get? k = some p ∧
      p.left = (c.after key t).total (Activity.checksOf k) := by
  have htotal := Crowd.total_after (t := t) (Activity.checksOf k) hkey
  rcases Crowd.getElem?_after hkey hk with ⟨rfl, htask⟩ | ⟨hne, hk⟩ | ⟨i, -, hi⟩
  · -- The batch has just started its checks, and had none before.
    obtain ⟨⟨stage, rfl, hstage⟩, p, hp, hleft⟩ := turns.joining htask.symm
    have hzero := h.total_checksOf_eq_zero hkey hstage
    refine ⟨p, hp, ?_⟩
    rw [← htask, hzero] at htotal
    rw [hleft]
    exact (Nat.zero_add _).symm.trans htotal.symm
  · obtain ⟨p, hp, hleft⟩ := h.joining k task deadline hk
    have hle : a.checksOf k ≤ p.left := hleft ▸ Crowd.le_total (Activity.checksOf k) hkey
    obtain ⟨p', hp', hleft'⟩ := turns.left hne hp hle
    exact ⟨p', hp', by omega⟩
  · exact absurd rfl (turns.started_ne_batch (List.mem_of_getElem? hi) _)

/-- After a turn, too, a check belongs to a batch that has started its checks. -/
theorem after_parents (h : Ordered c) (turns : Turns s c.now key c.shared a t)
    (hkey : c.tasks[key]? = some a) {k parent : TaskKey} {deadline : Nat} {stage : LinkCheck}
    (hk : (c.after key t).tasks[k]? = some (.check parent deadline stage)) :
    ∃ stage, (c.after key t).tasks[parent]? = some (.batch stage) ∧ stage.isStarted = true := by
  have hold : ∀ {k : TaskKey} {stage : LinkCheck},
      c.tasks[k]? = some (.check parent deadline stage) →
      ∃ stage, (c.after key t).tasks[parent]? = some (.batch stage) ∧
        stage.isStarted = true := by
    intro k stage hk
    obtain ⟨stage, hparent, hstarted⟩ := h.parents k parent deadline stage hk
    obtain ⟨stage', hparent', hstarted'⟩ := after_batch turns hkey hparent
    exact ⟨stage', hparent', hstarted' hstarted⟩
  rcases Crowd.getElem?_after hkey hk with ⟨-, htask⟩ | ⟨-, hk⟩ | ⟨i, -, hnew⟩
  · obtain ⟨stage', rfl⟩ := (htask ▸ turns.becomes).to_check
    exact hold hkey
  · exact hold hk
  · rcases turns.started_cases (List.mem_of_getElem? hnew) with
      ⟨deadline', link, task, d, hb, htask⟩ | ⟨job, stage', hb, -⟩
    · cases hb
      exact ⟨_, htask ▸ Crowd.getElem?_after_self hkey, rfl⟩
    · cases hb

/-- After a turn, too, a job belongs to a batch that left its result to it. -/
theorem after_origins (h : Ordered c) (turns : Turns s c.now key c.shared a t)
    (hkey : c.tasks[key]? = some a) {k : TaskKey} {job : RetryJob} {stage : Retry}
    (hk : (c.after key t).tasks[k]? = some (.retry job stage)) :
    ∃ key' : TaskKey, (c.after key t).tasks[key']?
      = some (.batch (.finished (.ok ⟨job.id, job.result, true⟩))) := by
  rcases Crowd.getElem?_after hkey hk with ⟨-, htask⟩ | ⟨-, hk⟩ | ⟨i, -, hnew⟩
  · obtain ⟨stage', rfl⟩ := (htask ▸ turns.becomes).to_retry
    obtain ⟨key', hbatch⟩ := h.origins key job stage' hkey
    exact ⟨key', after_finished turns hkey hbatch⟩
  · obtain ⟨key', hbatch⟩ := h.origins k job stage hk
    exact ⟨key', after_finished turns hkey hbatch⟩
  · rcases turns.started_cases (List.mem_of_getElem? hnew) with
      ⟨deadline', link, task, d, hb, -⟩ | ⟨job', stage', hb, htask⟩
    · cases hb
    · cases hb
      exact ⟨key, htask ▸ Crowd.getElem?_after_self hkey⟩

/-- After a turn, too, a batch that left its result to a job has that job. -/
theorem after_deferred (h : Ordered c) (turns : Turns s c.now key c.shared a t)
    (hkey : c.tasks[key]? = some a) {k : TaskKey} {o : Outcome}
    (hk : (c.after key t).tasks[k]? = some (.batch (.finished (.ok o))))
    (hdeferred : o.deferred = true) : ∃ (key' : TaskKey) (stage : Retry),
      (c.after key t).tasks[key']? = some (.retry ⟨o.id, o.results⟩ stage) := by
  rcases Crowd.getElem?_after hkey hk with ⟨-, htask⟩ | ⟨-, hk⟩ | ⟨i, -, hi⟩
  · -- Its job is the one that it has just started.
    obtain ⟨stage, hstarted⟩ := turns.started_of_deferred htask.symm hdeferred
    refine ⟨c.tasks.length, stage, ?_⟩
    have hnew : (c.after key t).tasks[c.tasks.length + 0]? = t.started[0]? :=
      Crowd.getElem?_after_started 0
    rw [hstarted] at hnew
    exact hnew
  · obtain ⟨key', stage, hjob⟩ := h.jobs k o hk hdeferred
    obtain ⟨stage', hjob'⟩ := after_job turns hkey hjob
    exact ⟨key', stage', hjob'⟩
  · exact absurd rfl (turns.started_ne_batch (List.mem_of_getElem? hi) _)

/-- Turns keep the order of a crowd. -/
theorem after (h : Ordered c) (turns : Turns s c.now key c.shared a t)
    (hkey : c.tasks[key]? = some a) : Ordered (c.after key t) where
  kinds := by
    refine Crowd.forall_after hkey h.kinds turns.becomes.isOfBatches fun b hb => ?_
    rcases turns.started_cases hb with ⟨_, _, _, _, rfl, -⟩ | ⟨_, _, rfl, -⟩ <;> rfl
  quiet := turns.quiet.trans h.quiet
  lock := h.after_lock turns hkey
  running := h.after_jobs turns hkey
  joining _ _ _ hk := h.after_joining turns hkey hk
  parents _ _ _ _ hk := h.after_parents turns hkey hk
  origins _ _ _ hk := h.after_origins turns hkey hk
  jobs _ _ hk hdeferred := h.after_deferred turns hkey hk hdeferred

/-- Callers come in order. -/
theorem call (h : Ordered c) (asked : Asked a) : Ordered (c.call a) := by
  have hold : ∀ {k : TaskKey} {b : Activity}, (c.call a).tasks[k]? = some b → b ≠ a →
      c.tasks[k]? = some b := by
    intro k b hb hne
    rcases Crowd.getElem?_call hb with ⟨-, rfl⟩ | hold
    · exact absurd rfl hne
    · exact hold
  exact
    { kinds := by
        intro k b hb
        rcases Crowd.getElem?_call hb with ⟨-, rfl⟩ | hold
        · cases asked <;> rfl
        · exact h.kinds k b hold
      quiet := h.quiet
      lock := GuardsJobs.call h.lock (by cases asked <;> rfl)
      running := by
        have hzero : a.jobs = 0 := by cases asked <;> rfl
        rw [Crowd.total_call, hzero]
        exact h.running
      joining := by
        intro k task deadline hk
        obtain ⟨p, hp, hleft⟩ :=
          h.joining k task deadline (hold hk (by cases asked <;> exact nofun))
        have hzero : a.checksOf k = 0 := by cases asked <;> rfl
        refine ⟨p, hp, ?_⟩
        rw [Crowd.total_call, hzero]
        exact hleft
      parents := by
        intro k parent deadline stage hk
        obtain ⟨stage', hparent, hstarted⟩ :=
          h.parents k parent deadline stage (hold hk (by cases asked <;> exact nofun))
        exact ⟨stage', Crowd.getElem?_call_of_some hparent, hstarted⟩
      origins := by
        intro k job stage hk
        obtain ⟨k', hbatch⟩ := h.origins k job stage (hold hk (by cases asked <;> exact nofun))
        exact ⟨k', Crowd.getElem?_call_of_some hbatch⟩
      jobs := by
        intro k o hk hdeferred
        obtain ⟨k', stage, hjob⟩ :=
          h.jobs k o (hold hk (by cases asked <;> exact nofun)) hdeferred
        exact ⟨k', stage, Crowd.getElem?_call_of_some hjob⟩ }

/-- Idle workers are in order. -/
theorem first {w : World} (quiet : w.reports.jobs = []) (lock : w.retries = .none) :
    Ordered w.crowd := by
  have hidle : ∀ {k : TaskKey} {b : Activity}, w.crowd.tasks[k]? = some b → b = .worker .idle :=
    World.eq_idle_of_crowd
  refine ⟨fun k b hb => ?_, quiet, ?_, ?_, ?_, ?_, ?_, ?_⟩
  · rw [hidle hb]
    rfl
  · have hlock : w.crowd.shared.retries.lock = .lock := congrArg Retries.lock lock
    rw [hlock]
    exact GuardsJobs.first w
  · have hrunning : w.crowd.shared.retries.running = 0 := congrArg Retries.running lock
    rw [hrunning, Crowd.total_eq_zero _ fun k b hb => by rw [hidle hb]; rfl]
  · intro k task deadline hk
    cases hidle hk
  · intro k parent deadline stage hk
    cases hidle hk
  · intro k job stage hk
    cases hidle hk
  · intro k o hk
    cases hidle hk

end Ordered

end Reachability.Engine
