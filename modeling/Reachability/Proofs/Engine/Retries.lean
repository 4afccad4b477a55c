import Reachability.Proofs.Engine.Checks
import Reachability.Proofs.Trail

set_option autoImplicit false

/-! # The course of a job

A job that tries again is seen from outside by the calls that it makes on the store, by what these
are answered and by the pauses that it asks for. The answers fix all the rest
(`Follows.acts_eq_course`): it calls until a call succeeds or the last one has failed, and pauses
after each call but the last, twice as long each time. -/

namespace Reachability

/-! ## What is planned -/

namespace Engine

open StoreService (Visit Moves)

/-- What a job does that can be seen from outside: it calls the store, hears whether that stored the
    result, and asks for a pause. -/
inductive Act where
  | called (call : StoreCall)
  | heard (stored : Bool)
  | paused (pause : Span)
  deriving DecidableEq

/-- The answer of the store, if that is what a job hears. -/
def Act.answer? : Act → Option Bool
  | .heard stored => some stored
  | _ => none

/-- The call of a job that is one. -/
def Act.call? : Act → Option StoreCall
  | .called call => some call
  | _ => none

/-- The pause that a job asks for, if it does. -/
def Act.pause? : Act → Option Span
  | .paused pause => some pause
  | _ => none

/-- The call that stores the result of a job. -/
def RetryJob.call (job : RetryJob) : StoreCall := .update job.id job.result

namespace RetryPolicy

/-- The pause after the attempt that comes after `n` others. -/
def pause (p : RetryPolicy) (n : Nat) : Span := .ofNanos (p.initialBackoff.nanos * 2 ^ n)

/-- The number of attempts of a job, `outcome n` being whether the one after `n` others succeeds: up
    to the first success, and as many as the policy allows. -/
def tries (p : RetryPolicy) (outcome : Nat → Bool) : Nat :=
  min ((List.range p.attempts).findIdx outcome + 1) p.attempts

/-- What a job does in `n` attempts that fail and are not the last one. -/
def failures (p : RetryPolicy) (job : RetryJob) (n : Nat) : List Act :=
  (List.range n).flatMap fun i => [.called job.call, .heard false, .paused (p.pause i)]

/-- What a job does in all. -/
def course (p : RetryPolicy) (job : RetryJob) (outcome : Nat → Bool) : List Act :=
  p.failures job (p.tries outcome - 1) ++
    [.called job.call, .heard (outcome (p.tries outcome - 1))]

variable (p : RetryPolicy) (job : RetryJob) {outcome : Nat → Bool} {n m : Nat}

theorem attempts_pos : 0 < p.attempts := Nat.le_max_left ..

theorem pause_zero : p.pause 0 = p.initialBackoff :=
  Span.ext_nanos (by
    rw [pause, Span.nanos_ofNanos, Nat.pow_zero, Nat.mul_one]
    exact Nat.min_eq_left p.initialBackoff.le_limit)

theorem double_pause (n : Nat) : (p.pause n).double = p.pause (n + 1) := by
  refine Span.ext_nanos ?_
  rw [Span.double, pause, pause, Span.nanos_ofNanos, Span.nanos_ofNanos, Span.nanos_ofNanos,
    Nat.pow_succ, ← Nat.mul_assoc]
  omega

theorem failures_succ (n : Nat) : p.failures job (n + 1) =
    p.failures job n ++ [.called job.call, .heard false, .paused (p.pause n)] := by
  rw [failures, List.range_succ, List.flatMap_append, List.flatMap_singleton, failures]

theorem failures_prefix (h : n ≤ m) : p.failures job n <+: p.failures job m := by
  induction h with
  | refl => exact List.prefix_rfl
  | step _ ih =>
      rw [failures_succ]
      exact ih.trans (List.prefix_append ..)

/-- Who fails and goes on calls again at least once. -/
theorem failures_called_prefix (h : n ≤ m) :
    p.failures job n ++ [.called job.call] <+: p.failures job m ++ [.called job.call] := by
  rcases Nat.eq_or_lt_of_le h with rfl | hlt
  · exact List.prefix_rfl
  · refine List.IsPrefix.trans ?_ (List.prefix_append ..)
    refine List.IsPrefix.trans ?_ (p.failures_prefix job hlt)
    rw [failures_succ]
    exact List.prefix_append_right_inj _ |>.2 (List.prefix_append [_] _)

theorem answers_failures (n : Nat) :
    (p.failures job n).filterMap Act.answer? = List.replicate n false := by
  induction n with
  | zero => rfl
  | succ n ih =>
      rw [failures_succ, List.filterMap_append, ih, List.replicate_succ']
      rfl

theorem calls_failures (n : Nat) :
    (p.failures job n).filterMap Act.call? = List.replicate n job.call := by
  induction n with
  | zero => rfl
  | succ n ih =>
      rw [failures_succ, List.filterMap_append, ih, List.replicate_succ']
      rfl

theorem pauses_failures (n : Nat) :
    (p.failures job n).filterMap Act.pause? = (List.range n).map p.pause := by
  induction n with
  | zero => rfl
  | succ n ih =>
      rw [failures_succ, List.filterMap_append, ih, List.range_succ, List.map_append]
      rfl

/-! ## The number of attempts -/

theorem tries_pos (outcome : Nat → Bool) : 0 < p.tries outcome :=
  Nat.lt_min.2 ⟨Nat.succ_pos _, p.attempts_pos⟩

/-- All attempts before the last one fail. -/
theorem lt_tries (hlt : n < p.attempts) (h : ∀ i < n, outcome i = false) : n < p.tries outcome := by
  have hle : n ≤ (List.range p.attempts).findIdx outcome := by
    refine List.le_findIdx_of_not (by rwa [List.length_range]) fun i hi => ?_
    rw [List.getElem_range, h i hi]
  exact Nat.lt_min.2 ⟨Nat.lt_succ_of_le hle, hlt⟩

theorem tries_of_success (hlt : n < p.attempts) (h : ∀ i < n, outcome i = false)
    (hn : outcome n = true) : p.tries outcome = n + 1 := by
  have hidx : (List.range p.attempts).findIdx outcome = n := by
    refine (List.findIdx_eq (by rwa [List.length_range])).2 ⟨?_, fun i hi => ?_⟩
    · rwa [List.getElem_range]
    · rw [List.getElem_range, h i hi]
  rw [tries, hidx]
  exact Nat.min_eq_left hlt

theorem tries_of_failure (h : ∀ i < p.attempts, outcome i = false) :
    p.tries outcome = p.attempts := by
  have hle := p.lt_tries (Nat.sub_one_lt p.attempts_pos.ne') fun i hi =>
    h i (Nat.lt_of_lt_of_le hi (Nat.sub_le ..))
  have hle' : p.tries outcome ≤ p.attempts := Nat.min_le_right ..
  have := p.attempts_pos
  omega

/-- A job that succeeds calls up to the first success, if the policy allows that many calls. -/
theorem tries_of_first (h : ∀ i < n, outcome i = false) (hn : outcome n = true) :
    p.tries outcome = min (n + 1) p.attempts := by
  by_cases hlt : n < p.attempts
  · rw [p.tries_of_success hlt h hn, Nat.min_eq_left hlt]
  · have hle : p.attempts ≤ n := Nat.le_of_not_lt hlt
    rw [p.tries_of_failure fun i hi => h i (Nat.lt_of_lt_of_le hi hle),
      Nat.min_eq_right (Nat.le_succ_of_le hle)]

theorem calls_course (outcome : Nat → Bool) : (p.course job outcome).filterMap Act.call?
    = List.replicate (p.tries outcome) job.call := by
  have htries := Nat.sub_add_cancel (p.tries_pos outcome)
  rw [course, List.filterMap_append, p.calls_failures, ← htries, List.replicate_succ',
    Nat.add_sub_cancel]
  rfl

theorem pauses_course (outcome : Nat → Bool) : (p.course job outcome).filterMap Act.pause?
    = (List.range (p.tries outcome - 1)).map p.pause := by
  rw [course, List.filterMap_append, p.pauses_failures]
  exact List.append_nil _

end RetryPolicy

/-! ## What is seen -/

/-- What a list has in front that another one has not. -/
def added {α : Type} (old new : List α) : List α := new.take (new.length - old.length)

@[simp] theorem added_self {α : Type} (l : List α) : added l l = [] := by
  rw [added, Nat.sub_self, List.take_zero]

@[simp] theorem added_cons {α : Type} (a : α) (l : List α) : added l (a :: l) = [a] := by
  rw [added, List.length_cons, Nat.add_sub_cancel_left]
  rfl

/-- The answer that a job has from the store, if it is about to hear one. -/
def Activity.hears? : Activity → Option Bool
  | retry _ (.trying _ _ (.answered answer)) => some answer.isOk
  | _ => none

/-- What is seen of a task in a turn: what it hears, the calls that come in at the store, and the
    pauses that the clock is asked for. -/
def Activity.seen (found : World) (a : Activity) (w : World) : List Act :=
  (a.hears?.map Act.heard).toList ++
    (added found.service.receipts w.service.receipts).reverse.map (fun r => .called r.call) ++
    (added found.scene.clock.sleeps w.scene.clock.sleeps).reverse.map .paused

/-- What is seen of a task in the turns of a trail. -/
def seen (deeds : List (Deed World Activity)) (key : TaskKey) : List Act :=
  (deeds.filter (·.key == key)).flatMap fun d => d.task.seen d.found d.turn.shared

section Seen

variable {deeds : List (Deed World Activity)} {d : Deed World Activity} {key : TaskKey}

theorem seen_concat_self (h : d.key = key) :
    seen (deeds ++ [d]) key = seen deeds key ++ d.task.seen d.found d.turn.shared := by
  have hself : [d].filter (·.key == key) = [d] :=
    List.filter_cons_of_pos (beq_iff_eq.2 h)
  rw [seen, List.filter_append, hself, List.flatMap_append, List.flatMap_singleton, seen]

theorem seen_concat_of_ne (h : d.key ≠ key) : seen (deeds ++ [d]) key = seen deeds key := by
  have hother : [d].filter (·.key == key) = [] :=
    List.filter_cons_of_neg (fun hkey => h (beq_iff_eq.1 hkey))
  rw [seen, List.filter_append, hother, List.append_nil, seen]

end Seen

/-! ## How far a job has come -/

/-- What has been seen of a job that is at some stage. -/
inductive Follows (p : RetryPolicy) (job : RetryJob) : Retry → List Act → Prop where
  | calling {n : Nat} (more : n < p.attempts) :
      Follows p job (.attempt job (p.attempts - n) (p.pause n)) (p.failures job n)
  | asking {n : Nat} {visit : Visit} (more : n < p.attempts)
      (called : ∀ call, visit ≠ .arriving call) :
      Follows p job (.trying (p.attempts - n) (p.pause n) visit)
        (p.failures job n ++ [.called job.call])
  | pausing {n : Nat} {finish : Option Nat} (more : n < p.attempts) :
      Follows p job (.pausing (p.attempts - n) (p.pause n) finish) (p.failures job n)
  | stored {n : Nat} (more : n < p.attempts) :
      Follows p job .finished (p.failures job n ++ [.called job.call, .heard true])
  | gaveUp : Follows p job .finished
      (p.failures job (p.attempts - 1) ++ [.called job.call, .heard false])

/-- The answers that a job has heard are those of an outcome. -/
def Agrees (outcome : Nat → Bool) (acts : List Act) : Prop :=
  ∀ n answer, (acts.filterMap Act.answer?)[n]? = some answer → outcome n = answer

namespace Follows

variable {p : RetryPolicy} {job : RetryJob} {stage : Retry} {acts : List Act}
  {outcome : Nat → Bool}

theorem start (p : RetryPolicy) (job : RetryJob) : Follows p job (.start p job) [] := by
  have h : Follows p job (.attempt job (p.attempts - 0) (p.pause 0)) [] := .calling p.attempts_pos
  rwa [Nat.sub_zero, p.pause_zero] at h

/-- An outcome that agrees with a job that goes on has failures only so far. -/
theorem eq_false_of_agrees {n i : Nat} {rest : List Act}
    (h : Agrees outcome (p.failures job n ++ rest)) (hi : i < n) : outcome i = false := by
  refine h i false ?_
  rw [List.filterMap_append, p.answers_failures, List.getElem?_append_left (by simpa using hi),
    List.getElem?_replicate, if_pos hi]

theorem eq_of_agrees {n : Nat} {answer : Bool}
    (h : Agrees outcome (p.failures job n ++ [.called job.call, .heard answer])) :
    outcome n = answer := by
  refine h n answer ?_
  rw [List.filterMap_append, p.answers_failures, List.getElem?_append_right (by simp),
    List.length_replicate, Nat.sub_self]
  rfl

/-- A job at its end has done all that its outcome says. -/
theorem acts_eq_course (h : Follows p job stage acts) (finished : stage = .finished)
    (agrees : Agrees outcome acts) : acts = p.course job outcome := by
  cases h with
  | calling => cases finished
  | asking => cases finished
  | pausing => cases finished
  | @stored n more =>
      have hn := eq_of_agrees agrees
      rw [RetryPolicy.course, p.tries_of_success more (fun i => eq_false_of_agrees agrees) hn,
        Nat.add_sub_cancel, hn]
  | gaveUp =>
      have hlast := eq_of_agrees agrees
      have htries : p.tries outcome = p.attempts := p.tries_of_failure fun i hi => by
        rcases Nat.eq_or_lt_of_le (Nat.le_sub_one_of_lt hi) with rfl | hlt
        · exact hlast
        · exact eq_false_of_agrees agrees hlt
      rw [RetryPolicy.course, htries, hlast]

/-- A job never does anything else than its outcome says. -/
theorem acts_prefix_course (h : Follows p job stage acts) (agrees : Agrees outcome acts) :
    acts <+: p.course job outcome := by
  have hbegin : ∀ {n}, n < p.attempts → (∀ i < n, outcome i = false) →
      p.failures job n ++ [.called job.call] <+: p.course job outcome := by
    intro n more hfalse
    have hlt := p.lt_tries more hfalse
    refine (p.failures_called_prefix job (Nat.le_sub_one_of_lt hlt)).trans ?_
    exact (List.prefix_append_right_inj _).2 (List.prefix_append [_] _)
  have hfailures : ∀ {n}, n < p.attempts → Agrees outcome (p.failures job n) →
      p.failures job n <+: p.course job outcome := by
    intro n more agrees
    rw [← List.append_nil (p.failures job n)] at agrees
    exact (List.prefix_append ..).trans (hbegin more fun i => eq_false_of_agrees agrees)
  cases h with
  | calling more => exact hfailures more agrees
  | asking more => exact hbegin more fun i => eq_false_of_agrees agrees
  | pausing more => exact hfailures more agrees
  | stored more => exact (stored more).acts_eq_course rfl agrees ▸ List.prefix_rfl
  | gaveUp => exact gaveUp.acts_eq_course rfl agrees ▸ List.prefix_rfl

end Follows

/-! ## One turn of a job -/

section Moves

variable {front : StoreFront} {moment : Moment} {now : Nat} {key : TaskKey}
  {s s' : StoreService} {visit visit' : Visit}

/-- A call that comes in at the store is kept in its receipts. -/
theorem receipts_of_arriving {call : StoreCall}
    (h : Moves front moment now key s (.arriving call) s' visit') :
    (∃ r, s'.receipts = r :: s.receipts ∧ r.call = call) ∧ ∀ call', visit' ≠ .arriving call' := by
  cases h with
  | refused => exact ⟨⟨_, rfl, rfl⟩, nofun⟩
  | looked => exact ⟨⟨_, rfl, rfl⟩, nofun⟩
  | admitted => exact ⟨⟨_, rfl, rfl⟩, nofun⟩

theorem exists_of_isAnswered (h : visit.isAnswered = true) :
    ∃ answer, visit = .answered answer := by
  cases visit with
  | answered answer => exact ⟨answer, rfl⟩
  | _ => cases h

/-- It comes in once. -/
theorem receipts_of_called (h : Moves front moment now key s visit s' visit')
    (called : ∀ call, visit ≠ .arriving call) :
    s'.receipts = s.receipts ∧ ∀ call, visit' ≠ .arriving call := by
  cases h with
  | refused => exact absurd rfl (called _)
  | looked => exact absurd rfl (called _)
  | admitted => exact absurd rfl (called _)
  | _ => exact ⟨rfl, nofun⟩

end Moves

namespace Follows

variable {s : Settings} {now : Nat} {key : TaskKey} {w : World} {job : RetryJob} {stage : Retry}
  {acts : List Act}

/-- While a call on the store goes on nothing else is seen than that it comes in. -/
theorem seen_of_visit {a : Activity} {visit : Visit} (visiting : a.visit? = some visit)
    (going : visit.isAnswered = false) :
    a.seen w (a.step s now key w).shared = (added w.service.receipts
      (w.service.step s.front (s.moment now) now key visit).1.receipts).reverse.map
        fun r => .called r.call := by
  have hhears : a.hears? = none := by
    cases Activity.calls_of_visit? visiting <;> cases visit <;> first | rfl | cases going
  rw [step_of_visit visiting going, Activity.seen, hhears, added_self]
  exact List.append_nil _

/-- If no call comes in and nobody asks for a pause, only what a task hears is seen. -/
theorem seen_eq_heard {a : Activity} {w' : World}
    (receipts : w'.service.receipts = w.service.receipts)
    (sleeps : w'.scene.clock.sleeps = w.scene.clock.sleeps) :
    a.seen w w' = (a.hears?.map Act.heard).toList := by
  rw [Activity.seen, receipts, sleeps, added_self, added_self]
  exact (List.append_nil _).trans (List.append_nil _)

/-- After a failure that is not the last one a job asks for its pause. -/
theorem hearing_error {left : Nat} (more : ¬ left ≤ 1) (backoff : Span) (e : StoreError) :
    let a : Activity := .retry job (.trying left backoff (.answered (.error e)))
    (∃ finish, (a.step s now key w).task = .retry job (.pausing (left - 1) backoff.double finish)) ∧
      a.seen w (a.step s now key w).shared = [.heard false, .paused backoff] := by
  intro a
  have hsleeps : (w.scene.clock.sleep backoff now).1.sleeps = backoff :: w.scene.clock.sleeps := by
    unfold Clock.sleep
    dsimp only
    split <;> rfl
  have hstep : a.step s now key w =
      ⟨{ w with scene := { w.scene with clock := (w.scene.clock.sleep backoff now).1 } },
        .retry job (.pausing (left - 1) backoff.double (w.scene.clock.sleep backoff now).2), []⟩ := by
    simp only [a, Activity.step, Retry.step, Retry.afterFailure, if_neg more]
  rw [hstep]
  refine ⟨⟨_, rfl⟩, ?_⟩
  rw [Activity.seen, added_self, hsleeps, added_cons]
  rfl

/-- What a job does when its answer is there. -/
theorem answered {n : Nat} (more : n < s.retry.attempts) (answer : StoreAnswer) :
    let a : Activity :=
      .retry job (.trying (s.retry.attempts - n) (s.retry.pause n) (.answered answer))
    ∃ stage', (a.step s now key w).task = .retry job stage' ∧
      Follows s.retry job stage' (s.retry.failures job n ++ [.called job.call] ++
        a.seen w (a.step s now key w).shared) := by
  intro a
  rw [List.append_assoc]
  cases answer with
  | ok reply =>
      have hseen : a.seen w (a.step s now key w).shared = [.heard true] := seen_eq_heard rfl rfl
      rw [hseen]
      exact ⟨_, rfl, .stored more⟩
  | error e =>
      by_cases hlast : s.retry.attempts - n ≤ 1
      · have hstep : a.step s now key w = ⟨(Retry.conclude w).1, .retry job .finished, []⟩ := by
          simp only [a, Activity.step, Retry.step, Retry.afterFailure, if_pos hlast]
          rfl
        have hseen : a.seen w (Retry.conclude w).1 = [.heard false] := seen_eq_heard rfl rfl
        rw [hstep, hseen, show n = s.retry.attempts - 1 by omega]
        exact ⟨_, rfl, .gaveUp⟩
      · obtain ⟨⟨finish, htask⟩, hseen⟩ : (∃ finish, (a.step s now key w).task = .retry job
            (.pausing (s.retry.attempts - n - 1) (s.retry.pause n).double finish)) ∧ _ :=
          hearing_error hlast (s.retry.pause n) e
        refine ⟨_, htask, ?_⟩
        rw [hseen, s.retry.double_pause, Nat.sub_sub]
        exact s.retry.failures_succ job n ▸ .pausing (n := n + 1) (by omega)

/-- What a job does when it calls the store. -/
theorem calls {n : Nat} (more : n < s.retry.attempts) :
    let a : Activity := .retry job (.attempt job (s.retry.attempts - n) (s.retry.pause n))
    ∃ stage', (a.step s now key w).task = .retry job stage' ∧
      Follows s.retry job stage'
        (s.retry.failures job n ++ a.seen w (a.step s now key w).shared) := by
  intro a
  have hvisit : a.visit? = some (.arriving job.call) := rfl
  have hseen : a.seen w (a.step s now key w).shared = _ := seen_of_visit hvisit rfl
  obtain ⟨⟨r, hr, hcall⟩, hcalled⟩ := receipts_of_arriving
    (StoreService.moves_step s.front (s.moment now) now key w.service (.arriving job.call))
  have hone : a.seen w (a.step s now key w).shared = [.called job.call] := by
    refine hseen.trans ?_
    rw [hr, added_cons, ← hcall]
    rfl
  rw [hone, step_of_visit hvisit rfl]
  exact ⟨_, rfl, .asking more hcalled⟩

/-- While a job waits for its answer nothing is seen of it. -/
theorem waits {n : Nat} {visit : Visit} (more : n < s.retry.attempts)
    (called : ∀ call, visit ≠ .arriving call) (going : visit.isAnswered = false) :
    let a : Activity := .retry job (.trying (s.retry.attempts - n) (s.retry.pause n) visit)
    ∃ stage', (a.step s now key w).task = .retry job stage' ∧
      Follows s.retry job stage' (s.retry.failures job n ++ [.called job.call] ++
        a.seen w (a.step s now key w).shared) := by
  intro a
  have hseen : a.seen w (a.step s now key w).shared = _ := seen_of_visit rfl going
  obtain ⟨hr, hcalled⟩ := receipts_of_called
    (StoreService.moves_step s.front (s.moment now) now key w.service visit) called
  have hnone : a.seen w (a.step s now key w).shared = [] := by
    refine hseen.trans ?_
    rw [hr, added_self]
    rfl
  rw [hnone, List.append_nil, step_of_visit rfl going]
  exact ⟨_, rfl, .asking more hcalled⟩

/-- What is seen of a job in its turn is what comes next. -/
theorem turn (h : Follows s.retry job stage acts) (going : stage ≠ .finished) :
    let a : Activity := .retry job stage
    ∃ stage', (a.step s now key w).task = .retry job stage' ∧
      Follows s.retry job stage' (acts ++ a.seen w (a.step s now key w).shared) := by
  intro a
  cases h with
  | calling more => exact calls more
  | asking more called =>
      cases hvisit : Visit.isAnswered _ with
      | false => exact waits more called hvisit
      | true =>
          obtain ⟨answer, rfl⟩ := exists_of_isAnswered hvisit
          exact answered more answer
  | pausing more =>
      have hseen : a.seen w (a.step s now key w).shared = [] := seen_eq_heard rfl rfl
      rw [hseen, List.append_nil]
      exact ⟨_, rfl, .calling more⟩
  | stored => exact absurd rfl going
  | gaveUp => exact absurd rfl going

end Follows

/-! ## Whole trails -/

/-- Callers start no job by themselves. -/
def NoJob (a : Activity) : Prop := ∀ job stage, a ≠ .retry job stage

section Trail

variable {s : Settings} {c : Crowd World Activity} {deeds : List (Deed World Activity)}
  {key : TaskKey} {job : RetryJob} {stage : Retry} {pace : Crowd World Activity → Nat → Prop}
  {calls : Activity → Prop}

/-- A job that is started is before its first attempt. -/
theorem eq_start_of_started {now : Nat} {w : World} {a : Activity}
    (h : .retry job stage ∈ (a.step s now key w).started) : stage = .start s.retry job := by
  cases a with
  | batch call =>
      rcases List.mem_append.1 h with h | h
      · obtain ⟨check, -, hcheck⟩ := List.mem_map.1 h
        cases hcheck
      · obtain ⟨handed, -, hjob⟩ := List.mem_map.1 h
        cases hjob
        rfl
  | submission job' stage' =>
      cases stage' with
      | inLine =>
          cases List.mem_singleton.1 h
          rfl
      | fresh => cases h
      | finished => cases h
  | _ => cases h

/-- What is a job after its turn was one before. -/
theorem of_step_eq_retry {now : Nat} {w : World} {a : Activity}
    (h : (a.step s now key w).task = .retry job stage) : ∃ stage', a = .retry job stage' := by
  cases a with
  | retry job' stage' =>
      cases h
      exact ⟨stage', rfl⟩
  | _ => cases h

/-- The turns of a trail are those of tasks that are there. -/
theorem key_lt_of_trail {w : World} (trail : Crowd.Trail (process s) pace calls w.crowd deeds c) :
    ∀ d ∈ deeds, d.key < c.tasks.length := by
  induction trail with
  | begin => exact List.forall_mem_nil _
  | @turn deeds c key a trail can ih =>
      have hle : c.tasks.length ≤ (c.turn (process s) key a).tasks.length := by
        show _ ≤ (c.tasks.set key _ ++ _).length
        rw [List.length_append, List.length_set]
        exact Nat.le_add_right ..
      intro d hd
      rcases List.mem_append.1 hd with hd | hd
      · exact Nat.lt_of_lt_of_le (ih d hd) hle
      · rw [List.mem_singleton.1 hd]
        exact Nat.lt_of_lt_of_le (List.getElem?_eq_some_iff.1 can.here).1 hle
  | await trail le may ih => exact ih
  | call trail may ih =>
      intro d hd
      refine Nat.lt_of_lt_of_le (ih d hd) ?_
      exact List.length_append ▸ Nat.le_add_right ..

theorem seen_eq_nil (h : ∀ d ∈ deeds, d.key ≠ key) : seen deeds key = [] := by
  have hnone : deeds.filter (·.key == key) = [] :=
    List.filter_eq_nil_iff.2 fun d hd hkey => h d hd (beq_iff_eq.1 hkey)
  rw [seen, hnone]
  rfl

/-- What was seen of a job belongs to its stage. -/
theorem follows_of_trail (nobody : ∀ a, calls a → NoJob a) {w : World}
    (trail : Crowd.Trail (process s) pace calls w.crowd deeds c)
    (hkey : c.tasks[key]? = some (.retry job stage)) :
    Follows s.retry job stage (seen deeds key) := by
  induction trail generalizing job stage with
  | begin => cases World.eq_idle_of_crowd hkey
  | @turn deeds c mover a trail can ih =>
      rcases Crowd.getElem?_after can.here hkey with ⟨rfl, htask⟩ | ⟨hne, hold⟩ | ⟨i, hi, hnew⟩
      · obtain ⟨stage', rfl⟩ := of_step_eq_retry htask.symm
        have going : stage' ≠ .finished := by
          rintro rfl
          cases can.unfinished
        obtain ⟨stage'', hstep, hfollows⟩ := (ih can.here).turn going
        obtain ⟨-, rfl⟩ := Activity.retry.inj (htask.trans hstep)
        have hseen : seen (deeds ++ [c.deed (process s) key (.retry job stage')]) key = _ :=
          seen_concat_self rfl
        rw [hseen]
        exact hfollows
      · rw [seen_concat_of_ne (Ne.symm hne)]
        exact ih hold
      · -- It has just been started.
        obtain rfl := eq_start_of_started (List.mem_of_getElem? hnew)
        have hnone : seen (deeds ++ [c.deed (process s) mover a]) key = [] := by
          refine seen_eq_nil fun d hd => Nat.ne_of_lt ?_
          rw [hi]
          refine Nat.lt_of_lt_of_le ?_ (Nat.le_add_right ..)
          rcases List.mem_append.1 hd with hd | hd
          · exact key_lt_of_trail trail d hd
          · rw [List.mem_singleton.1 hd]
            exact (List.getElem?_eq_some_iff.1 can.here).1
        rw [hnone]
        exact .start s.retry job
  | await trail le may ih => exact ih hkey
  | @call deeds c a trail may ih =>
      rcases Crowd.getElem?_call hkey with ⟨-, rfl⟩ | hold
      · exact absurd rfl (nobody _ may job stage)
      · exact ih hold

end Trail

/-! ## The end comes -/

/-- Every update is answered after a while. -/
structure Answering (front : StoreFront) : Prop where
  prompt : Prompt front
  updates : ∀ calls id result, (front.answer calls (.update id result)).isSome = true

/-- Whether what a job waits for comes by itself: its call, its answer or the end of its pause. -/
def Retry.IsTimed (job : RetryJob) : Retry → Prop
  | .trying _ _ (.arriving call) => call = job.call
  | .trying _ _ (.delayed _ finish) => finish.isSome = true
  | .trying _ _ (.answered _) => True
  | .trying .. => False
  | .pausing _ _ finish => finish.isSome = true
  | .finished => True

section End

variable {s : Settings} {c : Crowd World Activity} {now : Nat} {key : TaskKey} {w : World}
  {job : RetryJob} {stage : Retry}

/-- Nobody makes a clock of another kind. -/
theorem kind_step (s : Settings) (now : Nat) (key : TaskKey) (w : World) (a : Activity) :
    (a.step s now key w).shared.scene.clock.kind = w.scene.clock.kind := by
  cases a with
  | check parent deadline stage =>
      cases stage with
      | fresh link => rfl
      | inLine link =>
          simp only [Activity.step, LinkCheck.step]
          split
          · rfl
          · rw [LinkCheck.conclude, LinkCheck.scene_report]
      | probing link stage =>
          simp only [Activity.step, LinkCheck.step]
          split
          · rw [LinkCheck.conclude, LinkCheck.scene_report]
          · exact kind_probe_step ..
      | finished link status => rfl
  | batch stage =>
      cases stage with
      | creating caller visit =>
          cases visit with
          | answered answer =>
              cases answer with
              | ok reply =>
                  cases reply with
                  | task task =>
                      cases hd : BatchCall.deadline? s now caller with
                      | some d => rw [Activity.step_launch task hd]
                      | none => rw [Activity.step_crash task hd]
                  | _ => rfl
              | error e => rfl
          | _ => rfl
      | updating task results visit =>
          cases visit with
          | answered answer => cases answer <;> rfl
          | _ => rfl
      | _ => rfl
  | retry job stage =>
      cases stage with
      | trying left backoff visit =>
          cases visit with
          | answered answer =>
              cases answer with
              | ok reply => rfl
              | error e =>
                  simp only [Activity.step, Retry.step, Retry.afterFailure]
                  split
                  · rfl
                  · exact kind_sleep ..
          | _ => rfl
      | _ => rfl
  | submission job stage => cases stage <;> rfl
  | drain stage => cases stage <;> rfl
  | worker stage =>
      obtain ⟨service, reports, hshared⟩ := shared_worker s now key w stage
      exact congrArg (·.scene.clock.kind) hshared
  | report stage =>
      obtain ⟨reports, hshared⟩ := shared_report now key w stage
      exact congrArg (·.scene.clock.kind) hshared
  | probe deadline stage => exact kind_probe_step ..
  | rest stop isOver => rfl

/-- An update that comes in at the store waits for its answer. -/
theorem delayed_of_arriving {front : StoreFront} {moment : Moment} {service service' : StoreService}
    {visit' : Visit} (answering : Answering front)
    (h : Moves front moment now key service (.arriving job.call) service' visit') :
    ∃ answer finish, visit' = .delayed answer finish ∧ finish.isSome = true := by
  have hmoves := h
  cases h with
  | refused before => exact ⟨_, _, rfl, isTimed_of_moves hmoves answering.prompt rfl⟩
  | admitted through =>
      have hanswered := answering.updates (service.receipts.map (·.call)) job.id job.result
      rw [RetryJob.call] at through
      rw [through] at hanswered
      cases hanswered

/-- A turn brings a job nearer to its end, and what it waits for then comes, too. -/
theorem Retry.IsTimed.turn (h : stage.IsTimed job) (going : stage ≠ .finished)
    (answering : Answering s.front) (clock : w.scene.clock.kind ≠ .stalled) :
    ∃ stage', (Activity.step s now key w (.retry job stage)).task = .retry job stage' ∧
      stage'.IsTimed job ∧ stage'.rank < stage.rank := by
  cases stage with
  | trying left backoff visit =>
      cases visit with
      | arriving call =>
          obtain rfl : call = job.call := h
          have hmoves := StoreService.moves_step s.front (s.moment now) now key w.service
            (.arriving job.call)
          obtain ⟨answer, finish, hvisit, hfinish⟩ := delayed_of_arriving answering hmoves
          have hlt := hmoves.rank_lt rfl
          rw [hvisit] at hlt
          refine ⟨.trying left backoff (.delayed answer finish), congrArg
            (fun visit => Activity.retry job (.trying left backoff visit)) hvisit, hfinish, ?_⟩
          exact Nat.add_lt_add_right (Nat.add_lt_add_left hlt _) 1
      | delayed answer finish =>
          exact ⟨_, rfl, trivial, Nat.lt_succ_self _⟩
      | answered answer =>
          cases answer with
          | ok reply => exact ⟨_, rfl, trivial, Nat.succ_pos _⟩
          | error e =>
              simp only [Activity.step, Retry.step, Retry.afterFailure]
              split
              · exact ⟨_, rfl, trivial, Nat.succ_pos _⟩
              · refine ⟨_, rfl, isSome_sleep clock .., ?_⟩
                simp only [Retry.rank]
                omega
      | _ => exact h.elim
  | pausing left backoff finish => exact ⟨_, rfl, rfl, Nat.lt_succ_self _⟩
  | finished => exact absurd rfl going

/-- When what a job waits for has come it can go on. -/
theorem Retry.IsTimed.canGo (h : stage.IsTimed job) (going : stage ≠ .finished)
    (hkey : c.tasks[key]? = some (.retry job stage)) :
    ∃ later, c.now ≤ later ∧ (c.await later).CanGo (process s) key (.retry job stage) := by
  cases stage with
  | trying left backoff visit =>
      cases visit with
      | arriving call => exact ⟨c.now, Nat.le_refl _, hkey, rfl, .inl rfl⟩
      | delayed answer finish =>
          obtain ⟨t, rfl⟩ := Option.isSome_iff_exists.1 h
          refine ⟨max c.now t, Nat.le_max_left .., hkey, rfl, .inl ?_⟩
          have hcome : t ≤ (c.await (max c.now t)).now := Nat.le_max_right ..
          show (if (Option.any _ (some t)) = true then Wait.nothing else _) = _
          rw [Option.any_some, decide_eq_true hcome, if_pos rfl]
      | answered answer => exact ⟨c.now, Nat.le_refl _, hkey, rfl, .inl rfl⟩
      | _ => exact h.elim
  | pausing left backoff finish =>
      obtain ⟨t, rfl⟩ := Option.isSome_iff_exists.1 h
      refine ⟨max c.now t, Nat.le_max_left .., hkey, rfl, .inl ?_⟩
      have hcome : Probe.hasCome (some t) (c.await (max c.now t)).now = true :=
        Probe.hasCome_iff.2 ⟨t, rfl, Nat.le_max_right ..⟩
      show (if Probe.hasCome _ _ = true then Wait.nothing else _) = _
      rw [if_pos hcome]
  | finished => exact absurd rfl going

/-- If the store answers all updates and the clock goes, a job comes to its end with nobody's
    help. -/
theorem comes_to_its_end (answering : Answering s.front)
    (clock : c.shared.scene.clock.kind ≠ .stalled) (h : stage.IsTimed job)
    (hkey : c.tasks[key]? = some (.retry job stage)) :
    ∃ deeds c', Crowd.Trail (process s) Crowd.anyTime Crowd.noCall c deeds c' ∧
      (∀ d ∈ deeds, d.key = key) ∧ c'.tasks[key]? = some (.retry job .finished) := by
  induction hn : stage.rank using Nat.strongRecOn generalizing c stage with
  | ind n ih =>
    by_cases going : stage = .finished
    · exact ⟨[], c, .begin, List.forall_mem_nil _, going ▸ hkey⟩
    · obtain ⟨later, hle, can⟩ := h.canGo (s := s) going hkey
      obtain ⟨stage', htask, htimed, hlt⟩ := h.turn going answering clock
      have hnext : ((c.await later).turn (process s) key (.retry job stage)).tasks[key]?
          = some (.retry job stage') := htask ▸ Crowd.getElem?_after_self can.here
      obtain ⟨deeds, c', trail, hdeeds, hend⟩ := ih _ (hn ▸ hlt)
        (kind_step s later key c.shared (.retry job stage) ▸ clock) htimed hnext rfl
      refine ⟨_, c', (Crowd.Trail.turn (.await .begin hle trivial) can).trans trail, ?_, hend⟩
      exact List.forall_mem_append.2 ⟨List.forall_mem_singleton.2 rfl, hdeeds⟩

/-- What jobs wait for comes, in every run. -/
theorem isTimed_of_trail (answering : Answering s.front) {pace : Crowd World Activity → Nat → Prop}
    {calls : Activity → Prop} (nobody : ∀ a, calls a → NoJob a)
    {deeds : List (Deed World Activity)} (clock : w.scene.clock.kind ≠ .stalled)
    (trail : Crowd.Trail (process s) pace calls w.crowd deeds c) :
    c.shared.scene.clock.kind ≠ .stalled ∧ ∀ (key : TaskKey) job stage,
      c.tasks[key]? = some (.retry job stage) → stage.IsTimed job := by
  induction trail with
  | begin =>
      refine ⟨clock, fun key job stage hkey => ?_⟩
      cases World.eq_idle_of_crowd hkey
  | @turn deeds c mover a trail can ih =>
      obtain ⟨hclock, htimed⟩ := ih
      refine ⟨kind_step s c.now mover c.shared a ▸ hclock, fun key job stage hkey => ?_⟩
      rcases Crowd.getElem?_after can.here hkey with ⟨rfl, htask⟩ | ⟨-, hold⟩ | ⟨i, -, hnew⟩
      · obtain ⟨stage', rfl⟩ := of_step_eq_retry htask.symm
        have going : stage' ≠ .finished := by
          rintro rfl
          cases can.unfinished
        obtain ⟨stage'', hstep, hnext, -⟩ := (htimed key job stage' can.here).turn going answering
          hclock
        obtain ⟨-, rfl⟩ := Activity.retry.inj (htask.trans hstep)
        exact hnext
      · exact htimed key job stage hold
      · obtain rfl := eq_start_of_started (List.mem_of_getElem? hnew)
        rfl
  | await trail le may ih => exact ih
  | @call deeds c a trail may ih =>
      refine ⟨ih.1, fun key job stage hkey => ?_⟩
      rcases Crowd.getElem?_call hkey with ⟨-, rfl⟩ | hold
      · exact absurd rfl (nobody _ may job stage)
      · exact ih.2 key job stage hold

end End

end Engine

end Reachability
