import Reachability.Proofs.Engine.Runs

set_option autoImplicit false

/-! # Everything comes to its end

The members of a crowd have only so many turns left (`turns_le`), and as long as one of them is not
at its end, some member can go on, now or when the time has come that it waits for
(`Faithful.finished_of_still`). No two members wait for each other: who has the writer's lock can
write; jobs need no other lock; so callers that wait for all jobs give the lock of the jobs back; so
batches can hand over their jobs. -/

namespace Reachability.Engine

open StoreService (Visit Moves Site)

/-- Answers before the store do not take for ever. -/
def Prompt (front : StoreFront) : Prop :=
  ∀ calls call d, front.answer calls call = some d → d.delay.isSome = true

/-! ## What members wait for comes -/

/-- Whether the time that a member waits for comes. -/
def Activity.isTimed : Activity → Bool
  | batch (.creating _ (.delayed _ finish)) => finish.isSome
  | batch (.updating _ _ (.delayed _ finish)) => finish.isSome
  | retry _ (.trying _ _ (.delayed _ finish)) => finish.isSome
  | retry _ (.pausing _ _ finish) => finish.isSome
  | _ => true

/-- The clock goes, and the times that members wait for come. -/
structure Ticks (c : Crowd World Activity) : Prop where
  clock : c.shared.scene.clock.kind ≠ .stalled
  timed : ∀ (key : TaskKey) a, c.tasks[key]? = some a → a.isTimed = true

section Ticks

variable {s : Settings} {now : Nat} {key : TaskKey} {w : World} {a : Activity}
  {t : Turn World Activity} {c : Crowd World Activity}

theorem isSome_sleep {clock : Clock} (h : clock.kind ≠ .stalled) (d : Span) (now : Nat) :
    (clock.sleep d now).2.isSome = true := by
  unfold Clock.sleep
  dsimp only
  split
  · rfl
  · rfl
  · next hstalled => exact absurd hstalled h

theorem Turns.kind_eq (h : Turns s now key w a t) :
    t.shared.scene.clock.kind = w.scene.clock.kind := by
  cases h with
  | visits => rfl
  | plain h =>
      cases h with
      | paused more => exact kind_sleep ..
      | checked going nearer clock => exact clock
      | reported =>
          simp only [LinkCheck.report]
          split <;> rfl
      | _ => rfl

theorem isTimed_of_moves {front : StoreFront} {moment : Moment} {service service' : StoreService}
    {visit visit' : Visit} (moves : Moves front moment now key service visit service' visit')
    (prompt : Prompt front) {answer : StoreAnswer} {finish : Option Nat}
    (hvisit : visit' = .delayed answer finish) : finish.isSome = true := by
  cases moves with
  | refused before =>
      cases hvisit
      rw [Delayed.finish, Option.isSome_map]
      exact prompt _ _ _ before
  | _ => cases hvisit

theorem Turns.isTimed (h : Turns s now key w a t) (prompt : Prompt s.front)
    (clock : w.scene.clock.kind ≠ .stalled) :
    t.task.isTimed = true ∧ ∀ b ∈ t.started, b.isTimed = true := by
  cases h with
  | @visits visit visit' service visiting going ready moves =>
      refine ⟨?_, List.forall_mem_nil _⟩
      have hfinish : ∀ {answer finish}, visit' = .delayed answer finish → finish.isSome = true :=
        isTimed_of_moves moves prompt
      cases visit' with
      | delayed answer finish =>
          cases Activity.calls_of_visit? visiting <;> exact hfinish rfl
      | _ => cases Activity.calls_of_visit? visiting <;> rfl
  | plain h =>
      cases h with
      | launched deadline =>
          refine ⟨rfl, fun b hb => ?_⟩
          obtain ⟨link, -, rfl⟩ := List.mem_map.1 hb
          rfl
      | submitted ready =>
          refine ⟨rfl, fun b hb => ?_⟩
          obtain rfl := List.mem_singleton.1 hb
          rfl
      | paused more => exact ⟨isSome_sleep clock .., List.forall_mem_nil _⟩
      | _ => exact ⟨rfl, List.forall_mem_nil _⟩

theorem Ticks.after (h : Ticks c) (turns : Turns s c.now key c.shared a t)
    (hkey : c.tasks[key]? = some a) (prompt : Prompt s.front) : Ticks (c.after key t) where
  clock := by
    show t.shared.scene.clock.kind ≠ _
    rw [turns.kind_eq]
    exact h.clock
  timed := Crowd.forall_after hkey h.timed (turns.isTimed prompt h.clock).1
    (turns.isTimed prompt h.clock).2

theorem Ticks.call (h : Ticks c) (asked : Asked a) : Ticks (c.call a) where
  clock := h.clock
  timed k b hb := by
    rcases Crowd.getElem?_call hb with ⟨-, rfl⟩ | hold
    · cases asked <;> rfl
    · exact h.timed k b hold

end Ticks

/-! ## Nobody waits for ever -/

section Still

variable {log : Log} {d₀ : Disk} {here : Disk.Place} {base : String} {s : Settings}
  {c : Crowd World Activity} {key : TaskKey} {a : Activity} {published : List Log.Entry}

theorem wait_of_still (still : c.Still (process s)) (hkey : c.tasks[key]? = some a)
    (hgoing : a.isFinished = false) {later : Nat} (hle : c.now ≤ later) :
    a.wait later key c.shared ≠ .nothing ∧ a.wait later key c.shared ≠ .disk :=
  ⟨fun hwait => still later hle key a ⟨hkey, hgoing, .inl hwait⟩,
    fun hwait => still later hle key a ⟨hkey, hgoing, .inr hwait⟩⟩

/-- A check ends at its deadline at the latest. -/
theorem check_of_still (still : c.Still (process s)) {parent : TaskKey} {deadline : Nat}
    {stage : LinkCheck} (hkey : c.tasks[key]? = some (.check parent deadline stage)) :
    stage.isFinished = true := by
  have hwait := fun hgoing => (wait_of_still still hkey hgoing
    (Nat.le_max_left c.now deadline)).1
  have hcome : deadline ≤ max c.now deadline := Nat.le_max_right ..
  have huntil : ∀ finish, Probe.waitUntil (max c.now deadline) deadline finish = .nothing :=
    fun finish => Probe.waitUntil_eq_nothing.2 (.inr hcome)
  cases stage with
  | fresh link => exact absurd rfl (hwait rfl)
  | inLine link =>
      refine absurd ?_ (hwait rfl)
      show (if (_ || decide (deadline ≤ _)) = true then Wait.nothing else _) = _
      rw [decide_eq_true hcome, Bool.or_true, if_pos rfl]
  | probing link stage =>
      refine absurd ?_ (hwait rfl)
      show stage.wait _ _ = _
      cases stage with
      | fresh _ => rfl
      | finished _ => rfl
      | lookingUp => exact huntil _
      | requesting => exact huntil _
      | pausing => exact huntil _
  | finished link status => rfl

/-- Who still has a call on the store waits in line for the lock. -/
theorem inLine_of_still (still : c.Still (process s)) (ticks : Ticks c)
    (hkey : c.tasks[key]? = some a) {visit : Visit} (visiting : a.visit? = some visit) :
    visit.isInside = true ∧ c.shared.service.writer.holds key = false := by
  have hgoing : a.isFinished = false := by
    cases Activity.calls_of_visit? visiting <;> rfl
  have hwait : ∀ later, c.now ≤ later → visit.wait later key c.shared.service ≠ .nothing ∧
      visit.wait later key c.shared.service ≠ .disk := by
    intro later hle
    rw [← wait_of_visit visiting]
    exact wait_of_still still hkey hgoing hle
  have hnow := hwait c.now (Nat.le_refl _)
  cases visit with
  | arriving call => exact absurd rfl hnow.1
  | delayed answer finish =>
      have htimed := ticks.timed key a hkey
      have hsome : finish.isSome = true := by
        cases Activity.calls_of_visit? visiting <;> exact htimed
      obtain ⟨t, rfl⟩ := Option.isSome_iff_exists.1 hsome
      refine absurd ?_ (hwait (max c.now t) (Nat.le_max_left ..)).1
      show (if (Option.any _ (some t)) = true then Wait.nothing else _) = _
      rw [Option.any_some, decide_eq_true (Nat.le_max_right ..), if_pos rfl]
  | inLine call =>
      refine ⟨rfl, Bool.eq_false_iff.2 fun hholds => hnow.1 ?_⟩
      show (if _ then Wait.nothing else _) = _
      rw [if_pos hholds]
  | writing change => exact absurd rfl hnow.2
  | written change outcome => exact absurd rfl hnow.1
  | answered answer => exact absurd rfl hnow.1

namespace Faithful

/-- Nobody has a call on the store any more: somebody would have the lock and could go on. -/
theorem visit?_of_still (h : Faithful log d₀ here base s c published) (ticks : Ticks c)
    (still : c.Still (process s)) (hkey : c.tasks[key]? = some a) : a.visit? = none := by
  rw [← Option.not_isSome_iff_eq_none]
  intro hsome
  obtain ⟨visit, hvisit⟩ := Option.isSome_iff_exists.1 hsome
  have hguarded := h.sound.guarded
  have hinside : (visitors c key).any Visit.isInside = true := by
    rw [visitors_of_some hkey, hvisit, Option.any_some]
    exact (inLine_of_still still ticks hkey hvisit).1
  obtain ⟨holder, hholder⟩ := hguarded.serves.exists_holds hguarded.lock hinside
  obtain ⟨visit', hvisit', -⟩ := (Option.any_eq_true _ _).1 (hguarded.serves.of_holds hholder)
  obtain ⟨b, hb, hvisiting⟩ := Option.bind_eq_some_iff.1 hvisit'
  have hfree := (inLine_of_still still ticks hb hvisiting).2
  rw [hholder] at hfree
  cases hfree

/-- All jobs are at their end. -/
theorem retry_of_still (h : Faithful log d₀ here base s c published) (ticks : Ticks c)
    (still : c.Still (process s)) {job : RetryJob} {stage : Retry}
    (hkey : c.tasks[key]? = some (.retry job stage)) : stage = .finished := by
  cases stage with
  | trying left backoff visit => cases h.visit?_of_still ticks still hkey
  | pausing left backoff finish =>
      obtain ⟨t, rfl⟩ := Option.isSome_iff_exists.1 (ticks.timed key _ hkey)
      refine absurd ?_ (wait_of_still still hkey rfl (Nat.le_max_left c.now t)).1
      show (if Probe.hasCome _ _ = true then Wait.nothing else _) = _
      rw [if_pos (Probe.hasCome_iff.2 ⟨t, rfl, Nat.le_max_right ..⟩)]
  | finished => rfl

theorem running_of_still (h : Faithful log d₀ here base s c published) (ticks : Ticks c)
    (still : c.Still (process s)) : c.shared.retries.running = 0 := by
  rw [h.ordered.running]
  exact Crowd.total_eq_zero _ fun k b hb => Activity.jobs_eq_zero fun job stage hjob =>
    h.retry_of_still ticks still (hjob ▸ hb)

/-- Nobody has the lock of the jobs or waits for it: who has it could go on. -/
theorem queues_of_still (h : Faithful log d₀ here base s c published) (ticks : Ticks c)
    (still : c.Still (process s)) (hkey : c.tasks[key]? = some a) : a.queues = false := by
  have hfree : ∀ {k : TaskKey} {b : Activity}, c.tasks[k]? = some b → b.queues = true →
      c.shared.retries.lock.holds k = false := by
    intro k b hb hqueues
    refine Bool.eq_false_iff.2 fun hholds => ?_
    rcases Activity.queues_cases hqueues with ⟨task, results, rfl⟩ | rfl | rfl
    · refine (wait_of_still still hb rfl (Nat.le_refl _)).1 ?_
      show (if _ then Wait.nothing else _) = _
      rw [if_pos hholds]
    · refine (wait_of_still still hb rfl (Nat.le_refl _)).1 ?_
      show (if _ then Wait.nothing else _) = _
      rw [if_pos hholds]
    · refine (wait_of_still still hb rfl (Nat.le_refl _)).1 ?_
      show (if _ then Wait.nothing else _) = _
      rw [if_pos (h.running_of_still ticks still)]
  refine Bool.eq_false_iff.2 fun hqueues => ?_
  have hlock := h.ordered.lock
  have hinside : (c.tasks[key]?).any Activity.queues = true := by
    rw [hkey, Option.any_some, hqueues]
  obtain ⟨holder, hholder⟩ := hlock.serves.exists_holds hlock.lock hinside
  obtain ⟨b, hb, hqueues'⟩ := (Option.any_eq_true _ _).1 (hlock.serves.of_holds hholder)
  have hnot := hfree hb hqueues'
  rw [hholder] at hnot
  cases hnot

/-- When nobody can go on any more, all batches, all jobs and all who wait for them are at their
    end. -/
theorem finished_of_still (h : Faithful log d₀ here base s c published) (ticks : Ticks c)
    (still : c.Still (process s)) (hkey : c.tasks[key]? = some a) :
    a.isFinished = true ∨ ∃ stage, a = .worker stage := by
  have hvisit := h.visit?_of_still ticks still hkey
  have hqueues := h.queues_of_still ticks still hkey
  match a with
  | .check parent deadline stage =>
      have hend := check_of_still still hkey
      cases stage with
      | finished => exact .inl rfl
      | _ => cases hend
  | .batch (.creating ..) => cases hvisit
  | .batch (.joining task deadline) =>
      obtain ⟨p, hp, hleft⟩ := h.ordered.joining key task deadline hkey
      have hzero : c.total (Activity.checksOf key) = 0 :=
        Crowd.total_eq_zero _ fun k b hb => Activity.checksOf_eq_zero fun deadline check hcheck =>
          check_of_still still (hcheck ▸ hb)
      refine absurd ?_ (wait_of_still still hkey rfl (Nat.le_refl _)).1
      show (if BatchCall.isJoined _ _ = true then Wait.nothing else _) = _
      rw [BatchCall.isJoined, hp, if_pos (beq_iff_eq.2 (hleft.trans hzero))]
  | .batch (.updating ..) => cases hvisit
  | .batch (.submitting ..) => cases hqueues
  | .batch (.finished _) => exact .inl rfl
  | .batch (.crashed _) => exact .inl rfl
  | .retry job stage =>
      rw [h.retry_of_still ticks still hkey]
      exact .inl rfl
  | .drain .fresh => exact absurd rfl (wait_of_still still hkey rfl (Nat.le_refl _)).1
  | .drain .inLine => cases hqueues
  | .drain .waiting => cases hqueues
  | .drain .finished => exact .inl rfl
  | .worker stage => exact .inr ⟨stage, rfl⟩
  | .submission .. => cases h.ordered.kinds key _ hkey
  | .report _ => cases h.ordered.kinds key _ hkey
  | .probe .. => cases h.ordered.kinds key _ hkey
  | .rest .. => cases h.ordered.kinds key _ hkey

end Faithful

/-! ## How many turns there are -/

/-- Unless callers come, there are only so many turns. -/
theorem turns_le (site : Site log d₀ here base s.moment) (refuses : s.front.Refuses)
    {pace : Crowd World Activity → Nat → Prop} {c' : Crowd World Activity} {m : Nat}
    (h : Faithful log d₀ here base s c published)
    (run : Crowd.Run (process s) pace Crowd.noCall c m c') (room : Roomy log s c') :
    m + c'.total (Activity.rank s.retry) ≤ c.total (Activity.rank s.retry) := by
  -- Each turn lowers the sum of the ranks, with all that it starts.
  induction run with
  | begin => exact Nat.le_of_eq (Nat.zero_add _)
  | @turn m c' key a run can ih =>
      have hroom := room.of_le (length_receipts_le_step _)
      have hasked : ∀ a : Activity, Crowd.noCall a → Asked a := fun _ hno => hno.elim
      obtain ⟨published', hfaithful⟩ :=
        faithful site refuses h (run.mono (fun _ _ hp => hp) hasked) hroom
      have hlt := (hfaithful.turns can).rank_lt refuses
      have htotal := Crowd.total_after (t := a.step s c'.now key c'.shared)
        (Activity.rank s.retry) can.here
      have := ih hroom
      show m + 1 + (c'.after key (a.step s c'.now key c'.shared)).total _ ≤ _
      omega
  | await run le may ih => exact ih room
  | call run may => exact may.elim

/-- The clock goes on, and what members wait for comes, in every run. -/
theorem ticks {pace : Crowd World Activity → Nat → Prop} {first : Crowd World Activity} {n : Nat}
    (site : Site log d₀ here base s.moment) (refuses : s.front.Refuses)
    (prompt : Prompt s.front) (start : Faithful log d₀ here base s first published)
    (hticks : Ticks first) (run : Crowd.Run (process s) pace Asked first n c)
    (room : Roomy log s c) : Ticks c := by
  induction run with
  | begin => exact hticks
  | turn run can ih =>
      have hroom := room.of_le (length_receipts_le_step _)
      obtain ⟨published', hfaithful⟩ := faithful site refuses start run hroom
      exact (ih hroom).after (hfaithful.turns can) can.here prompt
  | await run le may ih => exact ⟨(ih room).clock, (ih room).timed⟩
  | call run may ih => exact (ih room).call may

end Still

end Reachability.Engine
