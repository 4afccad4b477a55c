import Reachability.Proofs.Engine.Retries

set_option autoImplicit false

/-! # Handing jobs over, and waiting for them

Who hands a job over and who waits for all jobs takes the same lock, in the order in which they ask
for it. All that a task of the engine has to do with the jobs is its `Part`, and a turn is a small
step of the parts (`plays_of_canGo`). From these steps it follows that there are as many jobs as
were handed over, and that a caller that waits for all jobs does not go on before all those who were
in line in front of it have handed over theirs (`Awaited.turn`). -/

namespace Reachability.Engine

/-! ## Parts -/

/-- What a task has to do with the jobs: it is in line to hand one over, has handed it over, is a
    job that is not or that is at its end, or is a caller that waits for the lock or for all
    jobs. -/
inductive Part where
  | none
  | offers (job : RetryJob)
  | gave (job : RetryJob)
  | runs (job : RetryJob)
  | ended (job : RetryJob)
  | queues
  | waits
  deriving DecidableEq

namespace Part

/-- Whether a part is one of those who have the lock of the jobs or wait for it. -/
def wants : Part → Bool
  | offers _ | queues | waits => true
  | _ => false

/-- Whether a part is one that keeps the lock. -/
def keeps : Part → Bool
  | waits => true
  | _ => false

/-- Whether a part is a job that is not at its end, as a number. -/
def running : Part → Nat
  | runs _ => 1
  | _ => 0

/-- Whether a job has been handed over, as a number. -/
def given (job : RetryJob) : Part → Nat
  | gave job' => if job' = job then 1 else 0
  | _ => 0

/-- Whether a part is that job, as a number. -/
def retried (job : RetryJob) : Part → Nat
  | runs job' | ended job' => if job' = job then 1 else 0
  | _ => 0

theorem wants_of_keeps {x : Part} (h : x.keeps = true) : x.wants = true := by
  cases x with
  | waits => rfl
  | _ => cases h

end Part

/-- The part of a task. -/
def Activity.part : Activity → Part
  | submission job .inLine => .offers job
  | submission job .finished => .gave job
  | batch (.submitting task results) => .offers ⟨task.id, results⟩
  | batch (.finished (.ok ⟨id, results, true⟩)) => .gave ⟨id, results⟩
  | retry job (.trying ..) => .runs job
  | retry job (.pausing ..) => .runs job
  | retry job .finished => .ended job
  | drain .inLine => .queues
  | drain .waiting => .waits
  | _ => .none

theorem Activity.isFinished_of_gave {a : Activity} {job : RetryJob} (h : a.part = .gave job) :
    a.isFinished = true := by
  unfold part at h
  split at h <;> first | rfl | cases h

/-- What the turn of a task makes of the jobs, of its part, and with which parts it starts. -/
inductive Plays (key : TaskKey) (q : Retries) : Part → Part → List Part → Retries → Prop where
  | aside {x : Part} {xs : List Part} (idle : x.wants = false) (strangers : ∀ y ∈ xs, y = .none) :
      Plays key q x x xs q
  | offers (job : RetryJob) :
      Plays key q .none (.offers job) [] { q with lock := q.lock.request key }
  | gives (job : RetryJob) (ready : q.lock.holds key = true) :
      Plays key q (.offers job) (.gave job) [.runs job] ⟨q.lock.release key, q.running + 1, 0⟩
  | ends (job : RetryJob) : Plays key q (.runs job) (.ended job) []
      { q with running := q.running - 1, settled := q.settled + 1 }
  | queues : Plays key q .none .queues [] { q with lock := q.lock.request key }
  | waits (ready : q.lock.holds key = true) : Plays key q .queues .waits [] q
  | leaves (idle : q.running = 0) :
      Plays key q .waits .none [] { q with lock := q.lock.release key, settled := 0 }

section Plays

variable {s : Settings} {c : Crowd World Activity} {key : TaskKey} {a : Activity}

/-- What a task does about the jobs in its turn. -/
abbrev Acting (s : Settings) (c : Crowd World Activity) (key : TaskKey) (a : Activity) : Prop :=
  Plays key c.shared.retries a.part (a.step s c.now key c.shared).task.part
    ((a.step s c.now key c.shared).started.map Activity.part)
    (a.step s c.now key c.shared).shared.retries

/-- A turn that leaves the jobs alone. -/
theorem acting_aside (part : (a.step s c.now key c.shared).task.part = a.part)
    (idle : a.part.wants = false)
    (retries : (a.step s c.now key c.shared).shared.retries = c.shared.retries)
    (started : (a.step s c.now key c.shared).started = []) : Acting s c key a := by
  rw [Acting, part, retries, started]
  exact .aside idle (List.forall_mem_nil _)

theorem acting_check (parent : TaskKey) (deadline : Nat) (stage : LinkCheck) :
    Acting s c key (.check parent deadline stage) := by
  refine acting_aside rfl rfl ?_ rfl
  cases stage with
  | fresh link => rfl
  | inLine link =>
      simp only [Activity.step, LinkCheck.step]
      split
      · rfl
      · rw [LinkCheck.conclude, LinkCheck.retries_report]
  | probing link stage =>
      simp only [Activity.step, LinkCheck.step]
      split
      · rw [LinkCheck.conclude, LinkCheck.retries_report]
      · rfl
  | finished link status => rfl

theorem acting_batch {stage : BatchCall} (can : c.CanGo (process s) key (.batch stage)) :
    Acting s c key (.batch stage) := by
  have haside : ∀ {x : Part}, x.wants = false →
      Plays key c.shared.retries x x [] c.shared.retries :=
    fun idle => .aside idle (List.forall_mem_nil _)
  cases stage with
  | creating caller visit =>
      cases visit with
      | answered answer =>
          cases answer with
          | error e => exact haside rfl
          | ok reply =>
              cases reply with
              | task task =>
                  cases hd : BatchCall.deadline? s c.now caller with
                  | some d =>
                      rw [Acting, Activity.step_launch task hd]
                      refine .aside rfl fun x hx => ?_
                      obtain ⟨b, hb, rfl⟩ := List.mem_map.1 hx
                      obtain ⟨link, -, rfl⟩ := List.mem_map.1 hb
                      rfl
                  | none =>
                      rw [Acting, Activity.step_crash task hd]
                      exact haside rfl
              | stored => exact haside rfl
              | tasks tasks => exact haside rfl
      | _ => exact haside rfl
  | joining task deadline => exact haside rfl
  | updating task results visit =>
      cases visit with
      | answered answer =>
          cases answer with
          | ok reply => exact haside rfl
          | error e => exact .offers ⟨task.id, results⟩
      | _ => exact haside rfl
  | submitting task results => exact .gives ⟨task.id, results⟩ (can.of_wait rfl)
  | finished answer => cases can.unfinished
  | crashed task => cases can.unfinished

theorem acting_retry {job : RetryJob} {stage : Retry}
    (can : c.CanGo (process s) key (.retry job stage)) : Acting s c key (.retry job stage) := by
  have haside : Plays key c.shared.retries (.runs job) (.runs job) [] c.shared.retries :=
    .aside rfl (List.forall_mem_nil _)
  cases stage with
  | trying left backoff visit =>
      cases visit with
      | answered answer =>
          cases answer with
          | ok reply => exact .ends job
          | error e =>
              simp only [Acting, Activity.step, Retry.step, Retry.afterFailure]
              split
              · exact .ends job
              · exact haside
      | _ => exact haside
  | pausing left backoff finish => exact haside
  | finished => cases can.unfinished

/-- Every turn of a task is a step of its part. -/
theorem plays_of_canGo (can : c.CanGo (process s) key a) : Acting s c key a := by
  cases a with
  | check parent deadline stage => exact acting_check parent deadline stage
  | batch stage => exact acting_batch can
  | retry job stage => exact acting_retry can
  | submission job stage =>
      cases stage with
      | fresh => exact .offers job
      | inLine => exact .gives job (can.of_wait rfl)
      | finished => cases can.unfinished
  | drain stage =>
      cases stage with
      | fresh => exact .queues
      | inLine => exact .waits (can.of_wait rfl)
      | waiting => exact .leaves (can.of_wait rfl)
      | finished => cases can.unfinished
  | worker stage =>
      obtain ⟨service, reports, hshared⟩ := shared_worker s c.now key c.shared stage
      have hretries := congrArg World.retries hshared
      exact acting_aside rfl rfl hretries rfl
  | report stage =>
      obtain ⟨reports, hshared⟩ := shared_report c.now key c.shared stage
      have hretries := congrArg World.retries hshared
      exact acting_aside rfl rfl hretries rfl
  | probe deadline stage => exact acting_aside rfl rfl rfl rfl
  | rest stop isOver => exact acting_aside rfl rfl rfl rfl

end Plays

/-! ## What a step of a part keeps -/

namespace Plays

variable {key : TaskKey} {q q' : Retries} {x x' : Part} {xs : List Part}

/-- What a step does to the lock of the jobs. -/
theorem passes (h : Plays key q x x' xs q') (keeps : x.keeps = true → q.lock.holds key = true) :
    q.lock.Passes key (x.wants = true) (x'.wants = true) (x'.keeps = true) q'.lock := by
  cases h with
  | aside idle strangers => exact .outside (by simp [idle]) (by simp [idle])
  | offers job => exact .enters Bool.false_ne_true rfl Bool.false_ne_true
  | gives job ready => exact .leaves rfl Bool.false_ne_true ready
  | ends job => exact .outside Bool.false_ne_true Bool.false_ne_true
  | queues => exact .enters Bool.false_ne_true rfl Bool.false_ne_true
  | waits ready => exact .inside rfl rfl ready
  | leaves idle => exact .leaves rfl Bool.false_ne_true (keeps rfl)

theorem wants_started (h : Plays key q x x' xs q') : ∀ y ∈ xs, y.wants = false := by
  cases h with
  | aside idle strangers =>
      intro y hy
      rw [strangers y hy]
      rfl
  | gives job ready => exact List.forall_mem_singleton.2 rfl
  | _ => exact List.forall_mem_nil _

theorem sum_strangers {f : Part → Nat} (hf : f .none = 0) (strangers : ∀ y ∈ xs, y = .none) :
    (xs.map f).sum = 0 := by
  rw [List.sum_eq_zero_iff_forall_eq_nat]
  intro n hn
  obtain ⟨y, hy, rfl⟩ := List.mem_map.1 hn
  rw [strangers y hy, hf]

/-- The number of the jobs goes up with each that starts and down with each that ends. -/
theorem running (h : Plays key q x x' xs q') (hle : x.running ≤ q.running) :
    q'.running + x.running = q.running + x'.running + (xs.map Part.running).sum := by
  cases h with
  | aside idle strangers => rw [sum_strangers rfl strangers, Nat.add_zero]
  | ends job => exact Nat.sub_add_cancel hle
  | _ => rfl

/-- Each job that is handed over starts. -/
theorem given (h : Plays key q x x' xs q') (job : RetryJob) :
    x'.given job + x.retried job + (xs.map (Part.given job)).sum
      = x.given job + x'.retried job + (xs.map (Part.retried job)).sum := by
  cases h with
  | aside idle strangers => rw [sum_strangers rfl strangers, sum_strangers rfl strangers]
  | gives job' ready => simp [Part.given, Part.retried]
  | ends job' => simp [Part.given, Part.retried]
  | _ => rfl

/-- Who is in line to hand a job over hands it over in its turn. -/
theorem of_offers {job : RetryJob} (h : Plays key q (.offers job) x' xs q') : x' = .gave job := by
  cases h with
  | aside idle strangers => cases idle
  | gives => rfl

end Plays

/-! ## The jobs of a crowd -/

/-- The lock of the jobs serves all who want it, the number of the jobs is right, and there are as
    many of each as were handed over. -/
structure Tallied (c : Crowd World Activity) : Prop where
  lock : Guards (·.part.wants) (·.part.keeps) c.shared.retries.lock c
  running : c.shared.retries.running = c.total (·.part.running)
  given : ∀ job, c.total (·.part.given job) = c.total (·.part.retried job)

namespace Tallied

variable {s : Settings} {c : Crowd World Activity} {key : TaskKey} {a : Activity}

theorem total_turn (f : Part → Nat) (hkey : c.tasks[key]? = some a) :
    (c.turn (process s) key a).total (f ·.part) + f a.part =
      c.total (f ·.part) + f (a.step s c.now key c.shared).task.part +
        (((a.step s c.now key c.shared).started.map Activity.part).map f).sum := by
  rw [List.map_map]
  exact Crowd.total_after (f ·.part) hkey

theorem turn (h : Tallied c) (can : c.CanGo (process s) key a) :
    Tallied (c.turn (process s) key a) := by
  have hplays := plays_of_canGo can
  refine ⟨?_, ?_, fun job => ?_⟩
  · refine h.lock.after (fun b => Part.wants_of_keeps) can.here hplays.passes fun b hb => ?_
    exact hplays.wants_started _ (List.mem_map_of_mem hb)
  · have htotal := total_turn (s := s) Part.running can.here
    have hle : a.part.running ≤ c.shared.retries.running :=
      h.running ▸ Crowd.le_total (·.part.running) can.here
    have hrunning := hplays.running hle
    have := h.running
    show (a.step s c.now key c.shared).shared.retries.running = _
    omega
  · have hgiven := total_turn (s := s) (Part.given job) can.here
    have hretried := total_turn (s := s) (Part.retried job) can.here
    have := hplays.given job
    have := h.given job
    omega

theorem call (h : Tallied c) (fresh : a.part = .none) : Tallied (c.call a) := by
  have hsame : ∀ f : Part → Nat, f .none = 0 →
      (c.call a).total (f ·.part) = c.total (f ·.part) := by
    intro f hf
    rw [Crowd.total_call, fresh, hf, Nat.add_zero]
  refine ⟨h.lock.call (fun b => Part.wants_of_keeps) (by rw [fresh]; rfl), ?_, fun job => ?_⟩
  · rw [hsame Part.running rfl]
    exact h.running
  · rw [hsame (Part.given job) rfl, hsame (Part.retried job) rfl]
    exact h.given job

theorem first {w : World} (none : w.retries = .none) : Tallied w.crowd := by
  have hzero : ∀ f : Part → Nat, f .none = 0 → w.crowd.total (f ·.part) = 0 := by
    intro f hf
    refine Crowd.total_eq_zero _ fun k b hb => ?_
    rw [World.eq_idle_of_crowd hb]
    exact hf
  refine ⟨?_, ?_, fun job => ?_⟩
  · have hlock : w.crowd.shared.retries.lock = .lock := congrArg Retries.lock none
    rw [hlock]
    exact .first w rfl rfl
  · rw [hzero Part.running rfl]
    exact congrArg Retries.running none
  · rw [hzero (Part.given job) rfl, hzero (Part.retried job) rfl]

/-- When no job is left all are at their end. -/
theorem ended_of_idle (h : Tallied c) (idle : c.shared.retries.running = 0) {job : RetryJob}
    {stage : Retry} (hkey : c.tasks[key]? = some (.retry job stage)) : stage = .finished := by
  have hle := Crowd.le_total (·.part.running) hkey
  rw [← h.running, idle] at hle
  cases stage with
  | finished => rfl
  | trying => cases hle
  | pausing => cases hle

end Tallied

/-! ## In front of a caller that waits for all jobs -/

/-- A task has handed a job over, or is in line for that in front of a caller that waits for all
    jobs. -/
def Awaited (drain other : TaskKey) (job : RetryJob) (c : Crowd World Activity) : Prop :=
  ∃ a, c.tasks[other]? = some a ∧ (a.part = .gave job ∨ a.part = .offers job ∧
    ∃ stage, c.tasks[drain]? = some (.drain stage) ∧
      (stage = .fresh ∨ [other, drain].Sublist c.shared.retries.lock.users))

namespace Awaited

variable {s : Settings} {c : Crowd World Activity} {drain other key : TaskKey} {a : Activity}
  {job : RetryJob}

theorem drain_ne {b : Activity} {stage : Drain} (hother : c.tasks[other]? = some b)
    (offers : b.part = .offers job) (hdrain : c.tasks[drain]? = some (.drain stage)) :
    other ≠ drain := by
  rintro rfl
  obtain rfl := Option.some.inj (hother.symm.trans hdrain)
  cases stage <;> cases offers

/-- Who waits for all jobs has the lock: nobody is in front of it. -/
theorem not_sublist (tallied : Tallied c) (hdrain : c.tasks[drain]? = some (.drain .waiting))
    (hne : other ≠ drain) : ¬ [other, drain].Sublist c.shared.retries.lock.users := by
  have hholds : c.shared.retries.lock.holds drain = true := by
    refine tallied.lock.holds drain ?_
    rw [hdrain]
    rfl
  exact tallied.lock.serves.not_before tallied.lock.lock hholds hne

/-- When a caller waits for all jobs, all in front of it have handed theirs over. -/
theorem gave (h : Awaited drain other job c) (tallied : Tallied c)
    (hdrain : c.tasks[drain]? = some (.drain .waiting)) :
    ∃ a, c.tasks[other]? = some a ∧ a.part = .gave job := by
  obtain ⟨a, ha, hgave | ⟨hoffers, stage, hstage, horder⟩⟩ := h
  · exact ⟨a, ha, hgave⟩
  · obtain rfl : stage = .waiting := by
      cases hstage.symm.trans hdrain
      rfl
    rcases horder with hfresh | hsub
    · cases hfresh
    · exact absurd hsub (not_sublist tallied hdrain (drain_ne ha hoffers hdrain))

/-- Who is in line stays in front of the caller until its turn, and hands its job over then. -/
theorem turn (h : Awaited drain other job c) (tallied : Tallied c)
    (can : c.CanGo (process s) key a) : Awaited drain other job (c.turn (process s) key a) := by
  have hplays := plays_of_canGo can
  obtain ⟨b, hb, hgave | ⟨hoffers, stage, hstage, horder⟩⟩ := h
  · have hne : other ≠ key := by
      rintro rfl
      obtain rfl := Option.some.inj (hb.symm.trans can.here)
      have hfinished := Activity.isFinished_of_gave hgave
      exact Bool.false_ne_true (can.unfinished.symm.trans hfinished)
    exact ⟨b, Crowd.getElem?_after_of_ne hne hb, .inl hgave⟩
  by_cases hother : other = key
  · subst hother
    obtain rfl := Option.some.inj (hb.symm.trans can.here)
    rw [Acting, hoffers] at hplays
    exact ⟨_, Crowd.getElem?_after_self can.here, .inl hplays.of_offers⟩
  have hne := drain_ne hb hoffers hstage
  have hkeeps : a.part.keeps = true → c.shared.retries.lock.holds key = true := fun hk =>
    tallied.lock.holds key (by rw [can.here, Option.any_some, hk])
  have hpasses := hplays.passes hkeeps
  refine ⟨b, Crowd.getElem?_after_of_ne hother hb, .inr ⟨hoffers, ?_⟩⟩
  by_cases hdrain : drain = key
  · subst hdrain
    obtain rfl := Option.some.inj (hstage.symm.trans can.here)
    have hself : ∀ stage', (Activity.step s c.now drain c.shared (.drain stage)).task
        = .drain stage' → (c.turn (process s) drain (.drain stage)).tasks[drain]?
          = some (.drain stage') := fun stage' htask => htask ▸ Crowd.getElem?_after_self can.here
    cases stage with
    | fresh =>
        -- The task is in line already, and the caller comes last.
        refine ⟨.inLine, hself _ rfl, .inr ?_⟩
        have hmem : other ∈ c.shared.retries.lock.users := by
          refine (tallied.lock.serves.mem_iff other).2 ?_
          rw [hb, Option.any_some, hoffers]
          rfl
        show List.Sublist _ (c.shared.retries.lock.request drain).users
        rw [Permits.users_request]
        exact (List.singleton_sublist.2 hmem).append (List.Sublist.refl [drain])
    | inLine =>
        refine ⟨.waiting, hself _ rfl, .inr ?_⟩
        have hsub := horder.resolve_left nofun
        exact hpasses.sublist tallied.lock.lock hsub fun _ => rfl
    | waiting =>
        exact absurd (horder.resolve_left nofun) (not_sublist tallied can.here hne)
    | finished => cases can.unfinished
  · refine ⟨stage, Crowd.getElem?_after_of_ne hdrain hstage, horder.imp_right fun hsub => ?_⟩
    refine hpasses.sublist tallied.lock.lock hsub fun hmem => ?_
    rcases List.mem_pair.1 hmem with rfl | rfl
    · exact absurd rfl hother
    · exact absurd rfl hdrain

theorem call (h : Awaited drain other job c) : Awaited drain other job (c.call a) := by
  obtain ⟨b, hb, hpart⟩ := h
  refine ⟨b, Crowd.getElem?_call_of_some hb, hpart.imp_right fun hoffers => ?_⟩
  obtain ⟨hoffers, stage, hstage, horder⟩ := hoffers
  exact ⟨hoffers, stage, Crowd.getElem?_call_of_some hstage, horder⟩

end Awaited

/-! ## Whole trails -/

/-- What callers ask of the engine. -/
inductive Called : Activity → Prop where
  | check (links : List String) (callerDeadline : Option Nat) :
      Called (.batch (.start links callerDeadline))
  | submit (job : RetryJob) : Called (.submission job .fresh)
  | wait : Called (.drain .fresh)
  | report (ids : List TaskId) (start : Nat) (limit : Int) :
      Called (.report (.fresh ids start limit))
  | probe (deadline : Nat) (link : String) : Called (.probe deadline (.fresh link))
  | rest (stop : Nat) : Called (.rest stop false)

namespace Called

variable {a : Activity}

theorem part_eq (h : Called a) : a.part = .none := by
  cases h <;> rfl

theorem noJob (h : Called a) : NoJob a := by
  cases h <;> exact nofun

end Called

section Trail

variable {s : Settings} {w : World} {c c₀ : Crowd World Activity}
  {deeds : List (Deed World Activity)} {pace : Crowd World Activity → Nat → Prop}

theorem tallied_of_trail (start : Tallied c₀)
    (trail : Crowd.Trail (process s) pace Called c₀ deeds c) : Tallied c := by
  induction trail with
  | begin => exact start
  | turn trail can ih => exact ih.turn can
  | await trail le may ih => exact ⟨ih.lock, ih.running, ih.given⟩
  | call trail may ih => exact ih.call may.part_eq

theorem awaited_of_trail {drain other : TaskKey} {job : RetryJob} (tallied : Tallied c₀)
    (start : Awaited drain other job c₀)
    (trail : Crowd.Trail (process s) pace Called c₀ deeds c) : Awaited drain other job c := by
  induction trail with
  | begin => exact start
  | turn trail can ih => exact ih.turn (tallied_of_trail tallied trail) can
  | await trail le may ih => exact ih
  | call trail may ih => exact ih.call

/-- When a caller calls that waits for all jobs, it comes after all that are in line. -/
theorem awaited_of_call {a : Activity} {other : TaskKey} {job : RetryJob}
    (hother : c.tasks[other]? = some a) (part : a.part = .offers job ∨ a.part = .gave job) :
    Awaited c.tasks.length other job (c.call (.drain .fresh)) := by
  refine ⟨a, Crowd.getElem?_call_of_some hother, part.symm.imp_right fun hoffers => ?_⟩
  refine ⟨hoffers, .fresh, ?_, .inl rfl⟩
  show (c.tasks ++ [_])[c.tasks.length]? = _
  rw [List.getElem?_append_right (Nat.le_refl _), Nat.sub_self]
  rfl

end Trail

/-- Any run of the engine, with any settings, front and store.

    A job calls the store with its task and its result up to the first success, at most as often as
    the policy allows and at least once, and pauses between two calls, the first time as the policy
    says and then twice as long each time, up to the longest span; nothing else is seen of it, and
    while it goes on what is seen is the beginning of that. If the store answers all updates and the
    clock goes it comes to its end. There are as many jobs as were handed over. When a caller
    returns that waits for all jobs, all of them are at their end and nobody has any to look at;
    among them are those of all who had handed theirs over, or were in line for that, when the
    caller came. -/
theorem jobs_run_their_course {s : Settings} {clock : ClockKind} {service : StoreService}
    {workers reportWorkers : Nat} {deeds : List (Deed World Activity)} {c : Crowd World Activity}
    (trail : Crowd.Trail (process s) Crowd.anyTime Called
      (World.initial clock service workers reportWorkers).crowd deeds c) :
    (∀ (key : TaskKey) job stage outcome, c.tasks[key]? = some (.retry job stage) →
      Agrees outcome (seen deeds key) → seen deeds key <+: s.retry.course job outcome ∧
      (stage = .finished → seen deeds key = s.retry.course job outcome)) ∧
    (∀ job outcome,
      (s.retry.course job outcome).filterMap Act.call?
        = List.replicate (s.retry.tries outcome) job.call ∧
      (s.retry.course job outcome).filterMap Act.pause?
        = (List.range (s.retry.tries outcome - 1)).map s.retry.pause) ∧
    (∀ n, (s.retry.pause n).nanos = min (s.retry.initialBackoff.nanos * 2 ^ n) Span.limit) ∧
    (∀ outcome n, (∀ i < n, outcome i = false) → outcome n = true →
      s.retry.tries outcome = min (n + 1) (max 1 s.retry.maxAttempts)) ∧
    (∀ outcome, (∀ n, outcome n = false) → s.retry.tries outcome = max 1 s.retry.maxAttempts) ∧
    (Answering s.front → clock ≠ .stalled → ∀ (key : TaskKey) job stage,
      c.tasks[key]? = some (.retry job stage) →
      ∃ deeds' c', Crowd.Trail (process s) Crowd.anyTime Crowd.noCall c deeds' c' ∧
        (∀ d ∈ deeds', d.key = key) ∧ c'.tasks[key]? = some (.retry job .finished)) ∧
    (∀ job, c.total (·.part.given job) = c.total (·.part.retried job)) ∧
    ∀ deeds₀ c₀ deeds₁, Crowd.Trail (process s) Crowd.anyTime Called
        (World.initial clock service workers reportWorkers).crowd deeds₀ c₀ →
      Crowd.Trail (process s) Crowd.anyTime Called (c₀.call (.drain .fresh)) deeds₁ c →
      c.CanGo (process s) c₀.tasks.length (.drain .waiting) →
      let after := c.turn (process s) c₀.tasks.length (.drain .waiting)
      after.tasks[c₀.tasks.length]? = some (.drain .finished) ∧
      after.shared.retries.running + after.shared.retries.settled = 0 ∧
      (∀ (key : TaskKey) job stage, after.tasks[key]? = some (.retry job stage) →
        stage = .finished) ∧
      ∀ (key : TaskKey) a job, c₀.tasks[key]? = some a →
        a.part = .offers job ∨ a.part = .gave job →
        ∃ b, after.tasks[key]? = some b ∧ b.part = .gave job := by
  have hnobody : ∀ a, Called a → NoJob a := fun _ => Called.noJob
  have hfirst : Tallied (World.initial clock service workers reportWorkers).crowd := .first rfl
  have htallied := tallied_of_trail hfirst trail
  refine ⟨fun key job stage outcome hkey agrees => ?_, fun job outcome => ?_, fun n => ?_,
    fun outcome n => s.retry.tries_of_first, fun outcome hfails => ?_,
    fun answering hclock key job stage hkey => ?_, htallied.given,
    fun deeds₀ c₀ deeds₁ trail₀ trail₁ can => ?_⟩
  · have hfollows := follows_of_trail hnobody trail hkey
    exact ⟨hfollows.acts_prefix_course agrees, fun hend => hfollows.acts_eq_course hend agrees⟩
  · exact ⟨s.retry.calls_course job outcome, s.retry.pauses_course job outcome⟩
  · exact Span.nanos_ofNanos _
  · exact s.retry.tries_of_failure fun i _ => hfails i
  · obtain ⟨hkind, htimed⟩ := isTimed_of_trail answering hnobody hclock trail
    exact comes_to_its_end answering hkind (htimed key job stage hkey) hkey
  · have hidle : c.shared.retries.running = 0 := can.of_wait rfl
    refine ⟨Crowd.getElem?_after_self can.here, hidle,
      fun key job stage => (htallied.turn can).ended_of_idle hidle, fun key a job hkey part => ?_⟩
    have hcalled : Tallied (c₀.call (.drain .fresh)) := (tallied_of_trail hfirst trail₀).call rfl
    have hawaited := awaited_of_trail hcalled (awaited_of_call hkey part) trail₁
    obtain ⟨b, hb, hgave⟩ := hawaited.gave htallied can.here
    have hne : key ≠ c₀.tasks.length := by
      rintro rfl
      cases hb.symm.trans can.here
      cases hgave
    exact ⟨b, Crowd.getElem?_after_of_ne hne hb, hgave⟩

/-! ## A job to look at -/

/-- A front that answers all updates, the first call with a refusal. -/
def faltering : StoreFront where
  answer calls call :=
    match call with
    | .update id _ => some ⟨if calls.isEmpty then .error (.notFound id) else .ok .stored, some 0⟩
    | _ => none

def falteringSettings : Settings := { sampleSettings with front := faltering }

def sampleJob : RetryJob := ⟨1, .empty⟩

theorem answering_faltering : Answering faltering where
  prompt calls call d h := by
    simp only [faltering] at h
    split at h
    · cases h
      rfl
    · cases h
  updates _ _ _ := rfl

theorem Activity.eq_of_ended {a : Activity} {job : RetryJob} (h : a.part = .ended job) :
    a = .retry job .finished := by
  unfold part at h
  split at h <;> cases h
  rfl

theorem Activity.eq_of_waits {a : Activity} (h : a.part = .waits) : a = .drain .waiting := by
  unfold part at h
  split at h <;> cases h
  rfl

theorem Activity.eq_of_runs {a : Activity} {job : RetryJob} (h : a.part = .runs job) :
    ∃ stage, a = .retry job stage := by
  unfold part at h
  split at h <;> cases h
  · exact ⟨_, rfl⟩
  · exact ⟨_, rfl⟩

/-- A job is handed over while a caller comes that waits for all jobs; its first call fails and its
    second one succeeds. -/
theorem jobs_run_their_course_after_a_refusal : ∃ deeds₀ c₀ deeds₁ c₁ deeds₂ c₂,
    Crowd.Trail (process falteringSettings) Crowd.anyTime Called sampleCrowd deeds₀ c₀ ∧
    (∃ a, c₀.tasks[1]? = some a ∧ a.part = .offers sampleJob) ∧ c₀.tasks.length = 2 ∧
    Crowd.Trail (process falteringSettings) Crowd.anyTime Called (c₀.call (.drain .fresh)) deeds₁ c₁ ∧
    (∃ stage, c₁.tasks[3]? = some (.retry sampleJob stage) ∧
      ∃ deeds c, Crowd.Trail (process falteringSettings) Crowd.anyTime Crowd.noCall c₁ deeds c ∧
        (∀ d ∈ deeds, d.key = 3) ∧ c.tasks[3]? = some (.retry sampleJob .finished)) ∧
    Crowd.Trail (process falteringSettings) Crowd.anyTime Called c₁ deeds₂ c₂ ∧
    c₂.tasks[3]? = some (.retry sampleJob .finished) ∧
    seen (deeds₀ ++ (deeds₁ ++ deeds₂)) 3
      = RetryPolicy.standard.course sampleJob (· == 1) ∧
    RetryPolicy.standard.tries (· == 1) = 2 ∧
    c₂.CanGo (process falteringSettings) 2 (.drain .waiting) ∧
    ∃ b, (c₂.turn (process falteringSettings) 2 (.drain .waiting)).tasks[1]? = some b ∧
      b.part = .gave sampleJob := by
  have hplay : ((sampleCrowd.call (.submission sampleJob .fresh)).retrace?
      (process falteringSettings) [1]).any (fun (deeds₀, c₀) =>
        decide (c₀.tasks[1]?.map Activity.part = some (.offers sampleJob)) &&
        decide (c₀.tasks.length = 2) &&
        ((c₀.call (.drain .fresh)).retrace? (process falteringSettings) [2, 1, 2]).any
          fun (deeds₁, c₁) => decide (c₁.tasks[3]?.map Activity.part = some (.runs sampleJob)) &&
            (c₁.retrace? (process falteringSettings) [3, 3, 3, 3, 3, 3, 3]).any
              fun (deeds₂, c₂) =>
                decide (c₂.tasks[3]?.map Activity.part = some (.ended sampleJob)) &&
                decide (c₂.tasks[2]?.map Activity.part = some .waits) &&
                (c₂.next? (process falteringSettings) 2).isSome &&
                decide ((seen (deeds₀ ++ (deeds₁ ++ deeds₂)) 3).filterMap Act.answer?
                  = [false, true])) = true := by
    decide +kernel
  obtain ⟨⟨deeds₀, c₀⟩, hc₀, h⟩ := (Option.any_eq_true _ _).1 hplay
  simp only [Bool.and_eq_true, decide_eq_true_eq] at h
  obtain ⟨⟨hoffers, hlength⟩, h⟩ := h
  obtain ⟨⟨deeds₁, c₁⟩, hc₁, h⟩ := (Option.any_eq_true _ _).1 h
  simp only [Bool.and_eq_true, decide_eq_true_eq] at h
  obtain ⟨hruns, h⟩ := h
  obtain ⟨⟨deeds₂, c₂⟩, hc₂, h⟩ := (Option.any_eq_true _ _).1 h
  simp only [Bool.and_eq_true, decide_eq_true_eq] at h
  obtain ⟨⟨⟨hended, hwaits⟩, hnext⟩, hanswers⟩ := h
  have htrail₀ : Crowd.Trail (process falteringSettings) Crowd.anyTime Called sampleCrowd deeds₀ c₀ :=
    (Crowd.Trail.begin.call (.submit sampleJob)).trans (Crowd.trail_of_retrace? hc₀)
  have htrail₁ : Crowd.Trail (process falteringSettings) Crowd.anyTime Called
      (c₀.call (.drain .fresh)) deeds₁ c₁ := Crowd.trail_of_retrace? hc₁
  have htrail₂ : Crowd.Trail (process falteringSettings) Crowd.anyTime Called c₁ deeds₂ c₂ :=
    Crowd.trail_of_retrace? hc₂
  obtain ⟨a, ha, hoffers⟩ := Option.map_eq_some_iff.1 hoffers
  obtain ⟨b, hb, hruns⟩ := Option.map_eq_some_iff.1 hruns
  obtain ⟨stage, rfl⟩ := Activity.eq_of_runs hruns
  obtain ⟨d, hd, hended⟩ := Option.map_eq_some_iff.1 hended
  obtain rfl := Activity.eq_of_ended hended
  obtain ⟨e, he, hwaits⟩ := Option.map_eq_some_iff.1 hwaits
  obtain rfl := Activity.eq_of_waits hwaits
  have can : c₂.CanGo (process falteringSettings) 2 (.drain .waiting) := by
    obtain ⟨c, hc⟩ := Option.isSome_iff_exists.1 hnext
    obtain ⟨task, can, -⟩ := Crowd.canGo_of_next? hc
    rwa [Option.some.inj (can.here.symm.trans he)] at can
  have hagrees : Agrees (· == 1) (seen (deeds₀ ++ (deeds₁ ++ deeds₂)) 3) := by
    intro n answer hn
    rw [hanswers] at hn
    rcases n with _ | _ | n
    · cases hn
      rfl
    · cases hn
      rfl
    · cases hn
  have hmiddle := jobs_run_their_course (htrail₀.call .wait |>.trans htrail₁)
  have hlast := jobs_run_their_course (htrail₀.call .wait |>.trans (htrail₁.trans htrail₂))
  obtain ⟨hcourse, -, -, htries, -, -, -, hdrain⟩ := hlast
  refine ⟨deeds₀, c₀, deeds₁, c₁, deeds₂, c₂, htrail₀, ⟨a, ha, hoffers⟩, hlength, htrail₁,
    ⟨stage, hb, hmiddle.2.2.2.2.2.1 answering_faltering nofun 3 sampleJob stage hb⟩, htrail₂, hd,
    (hcourse 3 sampleJob .finished _ hd hagrees).2 rfl, ?_, can, ?_⟩
  · exact htries (· == 1) 1 (by decide) rfl
  · have hreturns := hdrain deeds₀ c₀ (deeds₁ ++ deeds₂) htrail₀ (htrail₁.trans htrail₂)
      (hlength ▸ can)
    have hgave := hreturns.2.2.2 1 a sampleJob ha (.inl hoffers)
    rwa [hlength] at hgave

end Reachability.Engine
