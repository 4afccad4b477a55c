import Mathlib.Order.WellFounded
import Reachability.Proofs.Engine.Acts
import Reachability.Proofs.Engine.Schedules

set_option autoImplicit false

/-! # What time waits for

When answers before the store come at once, time does not pass while anybody calls on the store: who
has the writer's lock can go on, and so can all who do not wait for it. Nor does it pass while a
batch waits to hand its result over to a job, unless a caller waits for all jobs. So as long as a
batch has no answer, time passes only while it waits for a check, and no further than to the
deadline (`Steady.check_of_waiting`). -/

namespace Reachability.Engine

open StoreService (Visit Moves)

/-- The call on the store that the member with a number is making. -/
def calling (c : Crowd World Activity) (key : TaskKey) : Option Visit :=
  c.tasks[key]?.bind Activity.visiting?

/-- Tasks create what they are to create, the locks are in order, and answers that calls wait for
    are there. -/
structure Steady (c : Crowd World Activity) : Prop where
  kinds : ∀ (key : TaskKey) a, c.tasks[key]? = some a → a.isRequested = true
  creates : ∀ (key : TaskKey) caller visit,
    c.tasks[key]? = some (.batch (.creating caller visit)) → ∃ links, visit.Creates links
  lock : GuardsJobs c.shared.retries.lock c
  writer : StoreService.Guarded c.shared.service (calling c)
  due : ∀ key visit, calling c key = some visit → visit.isDue c.now = true

section Acts

variable {s : Settings} {now : Nat} {key : TaskKey} {w : World} {a : Activity}
  {t : Turn World Activity}

/-! ## Turns without a step of a call -/

/-- A turn in which no call on the store takes a step: calls may come and go. -/
structure Away (w : World) (a : Activity) (t : Turn World Activity) : Prop where
  service : t.shared.service = w.service
  told : a.visiting?.all Visit.isAnswered = true
  arrives : t.task.visiting?.all Visit.isArriving = true
  started : ∀ b ∈ t.started, b.visiting?.all Visit.isArriving = true

theorem Plain.away (h : Plain s now key w a t) : Away w a t := by
  refine ⟨h.service_eq, ?_, ?_, ?_⟩
  · cases h with
    | @worked stage stage' receiver kind nearer =>
        cases stage with
        | loading => exact absurd nearer (Nat.not_lt_zero _)
        | _ => rfl
    | _ => rfl
  · cases h with
    | @worked stage stage' receiver kind nearer =>
        cases stage' with
        | loading => cases kind
        | _ => rfl
    | _ => rfl
  · cases h with
    | launched deadline =>
        intro b hb
        obtain ⟨link, -, rfl⟩ := List.mem_map.1 hb
        rfl
    | submitted ready =>
        intro b hb
        obtain rfl := List.mem_singleton.1 hb
        rfl
    | _ => exact List.forall_mem_nil _

theorem Reports.away (h : Reports w a t) : Away w a t := by
  obtain ⟨reports, hshared⟩ := h.shared
  refine ⟨by rw [hshared], h.told, h.arrives, ?_⟩
  rw [h.started]
  exact List.forall_mem_nil _

/-! ## What a turn leaves -/

theorem Acts.isRequested (h : Acts s now key w a t) (ha : a.isRequested = true) :
    t.task.isRequested = true ∧ ∀ b ∈ t.started, b.isRequested = true := by
  cases h with
  | @visits visit visit' service visiting going ready moves =>
      refine ⟨?_, List.forall_mem_nil _⟩
      rcases Activity.visiting?_cases visiting with ⟨job, rfl⟩ | ⟨hvisit, hwith⟩
      · rfl
      · rw [hwith]
        cases Activity.calls_of_visit? hvisit <;> rfl
  | plain h =>
      refine ⟨?_, fun b hb => ?_⟩
      · have hkind := (Turns.plain h).becomes.isOfBatches
        cases htask : t.task <;> rw [htask] at hkind <;> first | rfl | cases hkind
      · rcases (Turns.plain h).started_cases hb with ⟨_, _, _, _, rfl, -⟩ | ⟨_, _, rfl, -⟩ <;> rfl
  | reports h =>
      rw [h.started]
      refine ⟨?_, List.forall_mem_nil _⟩
      have hafter := h.after
      cases htask : t.task <;> rw [htask] at hafter <;> first | rfl | cases hafter

/-- A batch goes on to create what it was to create. -/
theorem Acts.creates (h : Acts s now key w a t) (refuses : s.front.Refuses) {caller : Option Nat}
    {visit' : Visit} (htask : t.task = .batch (.creating caller visit')) :
    ∃ visit, a = .batch (.creating caller visit) ∧
      ∀ links, visit.Creates links → visit'.Creates links := by
  cases h with
  | @visits visit after service visiting going ready moves =>
      rcases Activity.visiting?_cases visiting with ⟨job, rfl⟩ | ⟨hvisit, hwith⟩
      · cases htask
      · have htask' : a.withVisit after = .batch (.creating caller visit') := hwith after ▸ htask
        cases Activity.calls_of_visit? hvisit with
        | creating caller' =>
            cases htask'
            exact ⟨visit, rfl, fun links => moves.creates refuses⟩
        | updating => cases htask'
        | trying => cases htask'
  | plain h => cases h <;> cases htask
  | reports h =>
      have hafter := h.after
      rw [htask] at hafter
      cases hafter

/-- What a turn does to the lock of the jobs. -/
theorem Acts.passes (h : Acts s now key w a t)
    (blocks : a.blocks = true → w.retries.lock.holds key = true) :
    w.retries.lock.Passes key (a.queues = true) (t.task.queues = true) (t.task.blocks = true)
      t.shared.retries.lock := by
  cases h with
  | @visits visit visit' service visiting going ready moves =>
      rcases Activity.visiting?_cases visiting with ⟨job, rfl⟩ | ⟨hvisit, hwith⟩
      · exact .outside Bool.false_ne_true Bool.false_ne_true
      · rw [hwith]
        exact (Turns.visits hvisit going ready moves).passes blocks
  | plain h => exact (Turns.plain h).passes blocks
  | reports h =>
      have hnot : ∀ {b : Activity}, b.isReporting = true → ¬ b.queues = true := by
        intro b hb hqueues
        cases b with
        | worker stage => cases hqueues
        | report stage => cases hqueues
        | _ => cases hb
      obtain ⟨reports, hshared⟩ := h.shared
      rw [hshared]
      exact .outside (hnot h.before) (hnot h.after)

theorem Acts.queues_started (h : Acts s now key w a t) :
    ∀ b ∈ t.started, b.queues = false := by
  intro b hb
  cases h with
  | visits => cases hb
  | plain h =>
      rcases (Turns.plain h).started_cases hb with ⟨_, _, _, _, rfl, -⟩ | ⟨_, _, rfl, -⟩ <;> rfl
  | reports h =>
      rw [h.started] at hb
      cases hb

/-- Answers that calls wait for are there after a turn, too. -/
theorem Acts.isDue (h : Acts s now key w a t) (instant : s.front.Instant)
    (due : ∀ visit, a.visiting? = some visit → visit.isDue now = true) :
    (∀ visit, t.task.visiting? = some visit → visit.isDue now = true) ∧
      ∀ b ∈ t.started, ∀ visit, b.visiting? = some visit → visit.isDue now = true := by
  have haway : Away w a t → (∀ visit, t.task.visiting? = some visit → visit.isDue now = true) ∧
      ∀ b ∈ t.started, ∀ visit, b.visiting? = some visit → visit.isDue now = true := by
    intro haway
    have harriving : ∀ {o : Option Visit}, o.all Visit.isArriving = true →
        ∀ visit, o = some visit → visit.isDue now = true := by
      rintro o ho visit rfl
      cases visit with
      | delayed => cases ho
      | _ => rfl
    exact ⟨harriving haway.arrives, fun b hb => harriving (haway.started b hb)⟩
  cases h with
  | @visits visit visit' service visiting going ready moves =>
      refine ⟨fun after hafter => ?_, List.forall_mem_nil _⟩
      have hself := Activity.visiting?_withVisiting visiting visit'
      obtain rfl := Option.some.inj (hself.symm.trans hafter)
      exact moves.isDue instant (due visit visiting)
  | plain h => exact haway h.away
  | reports h => exact haway h.away

end Acts

/-! ## What stays in order -/

namespace Steady

variable {s : Settings} {networks : Nat → TaskKey → World → Network} {c : Crowd World Activity}
  {key : TaskKey} {a : Activity} {t : Turn World Activity}

theorem calling_of_some (h : c.tasks[key]? = some a) : calling c key = a.visiting? := by
  rw [calling, h, Option.bind_some]

theorem any_calling (P : Visit → Bool) (c : Crowd World Activity) (key : TaskKey) :
    (calling c key).any P = (c.tasks[key]?).any fun a => a.visiting?.any P := by
  rw [calling]
  cases c.tasks[key]? <;> rfl

theorem acts (h : Steady c) (can : c.CanGo (amid s networks) key a) :
    Acts (s.over (networks c.now key c.shared)) c.now key c.shared a
      ((amid s networks).step c.now key c.tasks.length c.shared a) :=
  acts_of_canGo (canGo_over can _) (h.kinds key a can.here) fun caller visit ha =>
    h.creates key caller visit (ha ▸ can.here)

/-- Calls that come and go leave the lock to those who have it or wait for it. -/
theorem writer_of_away (h : Steady c) (away : Away c.shared a t) (hkey : c.tasks[key]? = some a) :
    StoreService.Guarded t.shared.service (calling (c.after key t)) := by
  have hnone : ∀ {P Q : Visit → Bool}, (∀ visit, Q visit = true → P visit = false) →
      ∀ {o : Option Visit}, o.all Q = true → o.any P = false := by
    intro P Q hPQ o ho
    cases o with
    | none => rfl
    | some visit => exact hPQ visit ho
  have hsame : ∀ P : Visit → Bool, (∀ visit, visit.isArriving = true → P visit = false) →
      (∀ visit, visit.isAnswered = true → P visit = false) → ∀ k,
      (calling (c.after key t) k).any P = (calling c k).any P := by
    intro P harriving hanswered k
    rw [any_calling, any_calling]
    by_cases hne : k = key
    · rw [hne, hkey, Crowd.getElem?_after_self hkey, Option.any_some, Option.any_some,
        hnone harriving away.arrives, hnone hanswered away.told]
    · rw [Crowd.any_after _ hne fun b hb => hnone harriving (away.started b hb)]
  have harriving : ∀ visit : Visit, visit.isArriving = true →
      visit.isInside = false ∧ visit.isWriting = false := by
    intro visit hvisit
    cases visit with
    | arriving call => exact ⟨rfl, rfl⟩
    | _ => cases hvisit
  have hanswered : ∀ visit : Visit, visit.isAnswered = true →
      visit.isInside = false ∧ visit.isWriting = false := by
    intro visit hvisit
    cases visit with
    | answered answer => exact ⟨rfl, rfl⟩
    | _ => cases hvisit
  rw [away.service]
  refine h.writer.congr (fun k => ?_) fun k hk => ?_
  · rw [hsame _ (fun v hv => (harriving v hv).1) fun v hv => (hanswered v hv).1]
  · rwa [hsame _ (fun v hv => (harriving v hv).2) fun v hv => (hanswered v hv).2] at hk

theorem after_writer (h : Steady c) (acts : Acts s c.now key c.shared a t)
    (hkey : c.tasks[key]? = some a) :
    StoreService.Guarded t.shared.service (calling (c.after key t)) := by
  cases acts with
  | @visits visit visit' service visiting going ready moves =>
      have hvisit : calling c key = some visit := (calling_of_some hkey).trans visiting
      refine h.writer.step moves hvisit (h.writer.holds_of_isInside hvisit ready) ?_
        fun other hne => ?_
      · exact (calling_of_some (Crowd.getElem?_after_self hkey)).trans
          (Activity.visiting?_withVisiting visiting visit')
      · rw [calling, calling, Crowd.getElem?_after_alone hne rfl]
  | plain hplain => exact h.writer_of_away hplain.away hkey
  | reports hreports => exact h.writer_of_away hreports.away hkey

/-- Turns keep a crowd steady. -/
theorem after (h : Steady c) (acts : Acts s c.now key c.shared a t) (instant : s.front.Instant)
    (hkey : c.tasks[key]? = some a) : Steady (c.after key t) where
  kinds := by
    have hkinds := acts.isRequested (h.kinds key a hkey)
    exact Crowd.forall_after hkey h.kinds hkinds.1 hkinds.2
  creates k caller visit hk := by
    rcases Crowd.getElem?_after hkey hk with ⟨-, htask⟩ | ⟨-, hk⟩ | ⟨i, -, hi⟩
    · obtain ⟨before, rfl, hkeeps⟩ := acts.creates instant.refuses htask.symm
      obtain ⟨links, hcreates⟩ := h.creates key caller before hkey
      exact ⟨links, hkeeps links hcreates⟩
    · exact h.creates k caller visit hk
    · have hnew := List.mem_of_getElem? hi
      cases acts with
      | visits => cases hnew
      | plain hplain => exact absurd rfl ((Turns.plain hplain).started_ne_batch hnew _)
      | reports hreports =>
          rw [hreports.started] at hnew
          cases hnew
  lock := GuardsJobs.after h.lock hkey acts.passes acts.queues_started
  writer := h.after_writer acts hkey
  due k visit hk := by
    obtain ⟨b, hb, hvisit⟩ := Option.bind_eq_some_iff.1 hk
    have hdue := acts.isDue instant fun visit hvisit =>
      h.due key visit ((calling_of_some hkey).trans hvisit)
    rcases Crowd.getElem?_after hkey hb with ⟨-, rfl⟩ | ⟨-, hb⟩ | ⟨i, -, hi⟩
    · exact hdue.1 visit hvisit
    · exact h.due k visit ((calling_of_some hb).trans hvisit)
    · exact hdue.2 b (List.mem_of_getElem? hi) visit hvisit

theorem await (h : Steady c) {later : Nat} (hle : c.now ≤ later) : Steady (c.await later) :=
  ⟨h.kinds, h.creates, h.lock, h.writer, fun key visit hvisit =>
    StoreService.Visit.isDue_mono (h.due key visit hvisit) hle⟩

/-- Callers keep a crowd steady. -/
theorem call (h : Steady c) (asked : Requested a) : Steady (c.call a) where
  kinds k b hb := by
    rcases Crowd.getElem?_call hb with ⟨-, rfl⟩ | hb
    · cases asked <;> rfl
    · exact h.kinds k b hb
  creates k caller visit hk := by
    rcases Crowd.getElem?_call hk with ⟨-, rfl⟩ | hk
    · cases asked
      exact ⟨_, rfl⟩
    · exact h.creates k caller visit hk
  lock := GuardsJobs.call h.lock (by cases asked <;> rfl)
  writer := by
    have hsame : ∀ P : Visit → Bool, (∀ call, P (.arriving call) = false) → ∀ k,
        (calling (c.call a) k).any P = (calling c k).any P := by
      intro P harriving k
      have hfresh : a.visiting?.any P = false := by
        cases asked with
        | check => exact harriving _
        | wait => rfl
        | report => rfl
      rw [any_calling, any_calling, Crowd.any_call (fun b : Activity => b.visiting?.any P) hfresh]
    refine h.writer.congr (fun k => ?_) fun k hk => ?_
    · rw [hsame Visit.isInside fun _ => rfl]
    · rwa [hsame Visit.isWriting fun _ => rfl] at hk
  due k visit hk := by
    obtain ⟨b, hb, hvisit⟩ := Option.bind_eq_some_iff.1 hk
    rcases Crowd.getElem?_call hb with ⟨-, rfl⟩ | hb
    · cases asked <;> cases hvisit
      rfl
    · exact h.due k visit ((calling_of_some hb).trans hvisit)

/-- Idle workers are steady. -/
theorem first (clock : ClockKind) (store : Store) (disk : Disk) (workers reportWorkers : Nat) :
    Steady (World.initial clock (.ofStore store disk) workers reportWorkers).crowd := by
  generalize hw : World.initial clock (.ofStore store disk) workers reportWorkers = w
  have hcalling : ∀ k, calling w.crowd k = none := w.bind_crowd Activity.visiting? rfl
  refine ⟨fun k b hb => ?_, fun k caller visit hk => ?_, ?_, ?_, fun k visit hk => ?_⟩
  · rw [World.eq_idle_of_crowd hb]
    rfl
  · cases World.eq_idle_of_crowd hk
  · have hlock : w.crowd.shared.retries.lock = .lock := by rw [← hw]; rfl
    rw [hlock]
    exact .first w
  · have hlock : w.crowd.shared.service.writer = .lock := by rw [← hw]; rfl
    rw [StoreService.Guarded, hlock]
    refine ⟨rfl, (Permits.serves_ofNat 1).congr fun k => ?_, fun k hk => ?_⟩
    · rw [hcalling]
      exact ⟨False.elim, nofun⟩
    · rw [hcalling] at hk
      cases hk
  · rw [hcalling] at hk
    cases hk

/-- In every run, whatever its pace, the crowd stays steady. -/
theorem of_run {first : Crowd World Activity} {pace : Crowd World Activity → Nat → Prop} {n : Nat}
    (instant : s.front.Instant) (start : Steady first)
    (run : Crowd.Run (amid s networks) pace Requested first n c) : Steady c := by
  induction run with
  | begin => exact start
  | turn run can ih => exact ih.after (ih.acts can) instant can.here
  | await run le may ih => exact ih.await le
  | call run may ih => exact ih.call may

end Steady

/-! ## When nobody can go on -/

/-- Everybody waits for a time, or for others. -/
def Waiting (c : Crowd World Activity) : Prop :=
  ∀ (key : TaskKey) a, c.tasks[key]? = some a → a.isFinished = false →
    ∃ due, a.wait c.now key c.shared = .change due

/-- No caller waits for all jobs any more. -/
def Undrained (c : Crowd World Activity) : Prop :=
  ∀ (key : TaskKey) stage, c.tasks[key]? = some (.drain stage) → stage = .finished

section Waiting

variable {s : Settings} {networks : Nat → TaskKey → World → Network} {c : Crowd World Activity}
  {key : TaskKey} {a : Activity}

theorem Waiting.of_urgent {later : Nat} (h : Crowd.Urgent (amid s networks) c later) :
    Waiting c := by
  intro key a hkey going
  obtain ⟨due, hwait, -⟩ := h key a hkey going
  exact ⟨due, hwait⟩

theorem Waiting.of_stuck (h : ∀ key a, ¬ c.CanGo (amid s networks) key a) : Waiting c := by
  intro key a hkey going
  cases hwait : a.wait c.now key c.shared with
  | change due => exact ⟨due, rfl⟩
  | nothing => exact absurd ⟨hkey, going, .inl hwait⟩ (h key a)
  | disk => exact absurd ⟨hkey, going, .inr hwait⟩ (h key a)

theorem Waiting.not_ready (h : Waiting c) (hkey : c.tasks[key]? = some a)
    (going : a.isFinished = false) :
    ¬ (a.wait c.now key c.shared = .nothing ∨ a.wait c.now key c.shared = .disk) := by
  obtain ⟨due, hwait⟩ := h key a hkey going
  rw [hwait]
  rintro (hready | hready) <;> cases hready

namespace Steady

/-- Then nobody calls on the store: who has the lock could go on. -/
theorem calling_eq_none (h : Steady c) (waiting : Waiting c) (key : TaskKey) :
    calling c key = none := by
  have hstuck : ∀ k visit, calling c k = some visit →
      (visit.isInside = true → c.shared.service.writer.holds k = true) → False := by
    intro k visit hcalling holds
    obtain ⟨b, hb, hvisit⟩ := Option.bind_eq_some_iff.1 hcalling
    refine waiting.not_ready hb (Activity.isFinished_of_visiting hvisit) ?_
    rw [Activity.wait_of_visiting hvisit]
    exact StoreService.Visit.ready (h.due k visit hcalling) holds
  refine Option.eq_none_iff_forall_ne_some.2 fun visit hcalling => ?_
  refine hstuck key visit hcalling fun hinside => ?_
  have hserved : (calling c key).any Visit.isInside = true := by
    rw [hcalling, Option.any_some, hinside]
  obtain ⟨holder, hholder⟩ := h.writer.serves.exists_holds h.writer.lock hserved
  obtain ⟨visit', hvisit', -⟩ := (Option.any_eq_true _ _).1 (h.writer.serves.of_holds hholder)
  exact (hstuck holder visit' hvisit' fun _ => hholder).elim

/-- Nor does a batch wait to hand over its result: who has the lock of the jobs could. -/
theorem queues_eq_false (h : Steady c) (waiting : Waiting c) (undrained : Undrained c)
    (hkey : c.tasks[key]? = some a) : a.queues = false := by
  refine Bool.eq_false_iff.2 fun hqueues => ?_
  have hserved : (c.tasks[key]?).any Activity.queues = true := by
    rw [hkey, Option.any_some, hqueues]
  obtain ⟨holder, hholder⟩ := h.lock.serves.exists_holds h.lock.lock hserved
  obtain ⟨b, hb, hqueues'⟩ := (Option.any_eq_true _ _).1 (h.lock.serves.of_holds hholder)
  rcases Activity.queues_cases hqueues' with ⟨task, results, rfl⟩ | rfl | rfl
  · exact waiting.not_ready hb rfl (.inl (if_pos hholder))
  · cases undrained holder _ hb
  · cases undrained holder _ hb

/-- A check that waits does so up to its deadline. -/
theorem wait_check_le {parent : TaskKey} {deadline now : Nat} {w : World} {check : LinkCheck}
    {due : Option Nat}
    (h : Activity.wait now key w (.check parent deadline check) = .change due) :
    ∃ t, due = some t ∧ t ≤ deadline := by
  cases check with
  | inLine link =>
      have hwait : (if (w.permits.holds key || decide (deadline ≤ now)) = true then Wait.nothing
          else .change (some deadline)) = .change due := h
      split at hwait
      · cases hwait
      · cases hwait
        exact ⟨deadline, rfl, Nat.le_refl _⟩
  | probing link stage =>
      have hwait : stage.wait now deadline = .change due := h
      rcases stage.wait_cases now deadline with hnothing | ⟨finish, huntil⟩
      · rw [hnothing] at hwait
        cases hwait
      · rw [huntil] at hwait
        obtain ⟨-, t, hdue, -, hle, -⟩ := Probe.waitUntil_eq_change hwait
        exact ⟨t, hdue, hle⟩
  | fresh link => cases h
  | finished link status => cases h

/-- A batch without an answer waits for its checks, and one of them waits for a time that is not
    after the deadline. -/
theorem check_of_waiting (h : Steady c) (joined : Joined c) (waiting : Waiting c)
    (undrained : Undrained c) {stage : BatchCall} (hkey : c.tasks[key]? = some (.batch stage))
    (going : Activity.isFinished (.batch stage) = false) :
    ∃ task deadline, stage = .joining task deadline ∧ ∃ (k : TaskKey) (check : LinkCheck) (t : Nat),
      c.tasks[k]? = some (.check key deadline check) ∧ check.isFinished = false ∧
      Activity.wait c.now k c.shared (.check key deadline check) = .change (some t) ∧
      t ≤ deadline := by
  have hcalling := h.calling_eq_none waiting key
  rw [calling_of_some hkey] at hcalling
  have hqueues := h.queues_eq_false waiting undrained hkey
  cases stage with
  | creating => cases hcalling
  | updating => cases hcalling
  | submitting => cases hqueues
  | finished => cases going
  | crashed => cases going
  | joining task deadline =>
      refine ⟨task, deadline, rfl, ?_⟩
      obtain ⟨p, hp, hleft⟩ := joined.joining key task deadline hkey
      have hsome : ∃ (k : TaskKey) (d : Nat) (check : LinkCheck),
          c.tasks[k]? = some (.check key d check) ∧ check.isFinished = false := by
        by_contra hnone
        have hzero : c.total (Activity.checksOf key) = 0 := Crowd.total_eq_zero _ fun k b hb =>
          Activity.checksOf_eq_zero fun d check hcheck => by
            by_contra hgoing
            exact hnone ⟨k, d, check, hcheck ▸ hb, Bool.not_eq_true _ ▸ hgoing⟩
        refine waiting.not_ready hkey rfl (.inl ?_)
        show (if BatchCall.isJoined _ _ = true then Wait.nothing else _) = _
        rw [BatchCall.isJoined, hp, if_pos (beq_iff_eq.2 (hleft.trans hzero))]
      obtain ⟨k, d, check, hk, hgoing⟩ := hsome
      obtain ⟨task', hparent, -⟩ := joined.parents k key d check hk hgoing
      rw [hkey] at hparent
      cases hparent
      have hunfinished : Activity.isFinished (.check key deadline check) = false := by
        cases check <;> first | rfl | cases hgoing
      obtain ⟨due, hwait⟩ := waiting k _ hk hunfinished
      obtain ⟨t, rfl, hle⟩ := wait_check_le hwait
      exact ⟨k, check, t, hk, hgoing, hwait, hle⟩

end Steady

end Waiting

/-! ## The next time that somebody waits for -/

section Due

variable {now : Nat} {key : TaskKey} {w : World} {t : Nat}

/-- Who waits unless its time has come goes on when it has. -/
theorem nothing_of_unless {p q : Prop} [Decidable p] [Decidable q] {finish finish' : Option Nat}
    (h : (if p then Wait.nothing else .change finish) = .change (some t))
    (hq : finish = some t → q) : (if q then Wait.nothing else .change finish') = .nothing := by
  split at h
  · cases h
  · cases h
    exact if_pos (hq rfl)

theorem nothing_of_visit {service : StoreService} {visit : Visit}
    (h : visit.wait now key service = .change (some t)) : visit.wait t key service = .nothing := by
  cases visit with
  | delayed answer finish =>
      refine nothing_of_unless h fun hdue => ?_
      rw [hdue, Option.any_some, decide_eq_true (Nat.le_refl t)]
  | inLine call => exact nothing_of_unless h nofun
  | _ => cases h

theorem nothing_of_probe {deadline : Nat} {stage : Probe.Stage}
    (h : stage.wait now deadline = .change (some t)) : stage.wait t deadline = .nothing := by
  rcases stage.wait_cases now deadline with hnothing | ⟨finish, huntil⟩
  · rw [hnothing] at h
    cases h
  · rw [huntil] at h
    obtain ⟨-, due, hdue, -, -, -, hnothing⟩ := Probe.waitUntil_eq_change h
    cases hdue
    rw [huntil, hnothing]

theorem nothing_of_check {parent : TaskKey} {deadline : Nat} {check : LinkCheck}
    (h : Activity.wait now key w (.check parent deadline check) = .change (some t)) :
    Activity.wait t key w (.check parent deadline check) = .nothing := by
  cases check with
  | inLine link =>
      refine nothing_of_unless h fun hdue => ?_
      cases hdue
      rw [decide_eq_true (Nat.le_refl t), Bool.or_true]
  | probing link stage => exact nothing_of_probe h
  | fresh link => cases h
  | finished link status => cases h

theorem nothing_of_report {stage : ReportCall}
    (h : Activity.wait now key w (.report stage) = .change (some t)) :
    Activity.wait t key w (.report stage) = .nothing := by
  cases stage with
  | fresh ids start limit =>
      refine nothing_of_unless h fun hdue => ?_
      cases hdue
      exact Nat.le_refl t
  | inLine ids deadline =>
      refine nothing_of_unless h fun hdue => ?_
      cases hdue
      rw [decide_eq_true (Nat.le_refl t), Bool.or_true]
  | listening deadline =>
      refine nothing_of_unless h fun hdue => ?_
      cases hdue
      rw [decide_eq_true (Nat.le_refl t), Bool.or_true]
  | finished answer time => cases h

/-- When the time has come that somebody waits for, it can go on. -/
theorem nothing_of_wait {a : Activity} (h : a.wait now key w = .change (some t)) :
    a.wait t key w = .nothing := by
  match a with
  | .check .. => exact nothing_of_check h
  | .batch (.creating ..) => exact nothing_of_visit h
  | .batch (.updating ..) => exact nothing_of_visit h
  | .batch (.joining ..) => exact nothing_of_unless h nofun
  | .batch (.submitting ..) => exact nothing_of_unless h nofun
  | .retry _ (.trying ..) => exact nothing_of_visit h
  | .retry _ (.pausing _ _ finish) =>
      exact nothing_of_unless h fun hdue => Probe.hasCome_iff.2 ⟨t, hdue, Nat.le_refl t⟩
  | .submission _ .inLine => exact nothing_of_unless h nofun
  | .drain .inLine => exact nothing_of_unless h nofun
  | .drain .waiting => exact nothing_of_unless h nofun
  | .worker .inLine => exact nothing_of_unless h nofun
  | .worker .listening =>
      simp only [Activity.wait, ReportWorker.wait] at h
      split at h <;> cases h
  | .worker (.loading ..) => exact nothing_of_visit h
  | .report _ => exact nothing_of_report h
  | .probe .. => exact nothing_of_probe h
  | .rest stop _ =>
      refine nothing_of_unless h fun hdue => ?_
      cases hdue
      exact Nat.le_refl t

variable {s : Settings} {networks : Nat → TaskKey → World → Network} {c : Crowd World Activity}
  {a : Activity}

/-- When nobody can go on and somebody waits for a time, time can pass to the first such time, and
    then somebody can go on. -/
theorem Waiting.next (h : Waiting c) (hkey : c.tasks[key]? = some a)
    (going : a.isFinished = false) (hwait : a.wait c.now key c.shared = .change (some t)) :
    ∃ later, c.now ≤ later ∧ Crowd.Urgent (amid s networks) c later ∧
      ∃ k b, (c.await later).CanGo (amid s networks) k b := by
  let Due (t : Nat) : Prop := ∃ (k : TaskKey) (b : Activity), c.tasks[k]? = some b ∧
    b.isFinished = false ∧ b.wait c.now k c.shared = .change (some t)
  obtain ⟨later, ⟨k, b, hk, hgoing, hdue⟩, hfirst⟩ :=
    wellFounded_lt.has_min {t | Due t} ⟨t, key, a, hkey, going, hwait⟩
  refine ⟨later, due_of_wait hdue, fun k' b' hk' hgoing' => ?_, k, b, hk, hgoing,
    .inl (nothing_of_wait hdue)⟩
  obtain ⟨due, hwait'⟩ := h k' b' hk' hgoing'
  refine ⟨due, hwait', fun t' ht' => Nat.le_of_not_lt (hfirst t' ⟨k', b', hk', hgoing', ?_⟩)⟩
  rw [hwait', ht']

end Due

end Reachability.Engine
