import Reachability.Proofs.Engine.Persistence

set_option autoImplicit false

/-! # Handing a result over

A batch whose result could not be stored leaves it to a job. For that it needs the lock of the jobs,
and a caller that waits for all jobs keeps this lock until they are at their end. So a batch has its
answer at once if no such caller comes before it in the line for the lock; behind one, it waits
until all jobs that are there are at their end, with all their pauses (`handover_exact`). -/

namespace Reachability.Engine

open StoreService (Site)

/-- A batch is about to leave its result to a job. -/
def HandsOver (c : Crowd World Activity) (key : TaskKey) (task : Task) (results : Results) : Prop :=
  c.tasks[key]? = some (.batch (.submitting task results))

/-- Those who have the lock of the jobs or wait for it, the first one first. -/
def line (c : Crowd World Activity) : List TaskKey := c.shared.retries.lock.users

/-- Time stands still. -/
def noTime (_ : Crowd World Activity) (_ : Nat) : Prop := False

/-! ## Who is in line -/

section Line

variable {s : Settings} {c : Crowd World Activity} {key : TaskKey} {a : Activity} {task : Task}
  {results : Results}

namespace Ordered

theorem nodup_line (h : Ordered c) : (line c).Nodup := h.lock.serves.nodup

theorem mem_line_iff (h : Ordered c) (hkey : c.tasks[key]? = some a) :
    key ∈ line c ↔ a.queues = true := by
  have hmem := h.lock.serves.mem_iff key
  rwa [hkey, Option.any_some] at hmem

/-- Who is in line is a batch about to leave its result to a job, or a caller that waits for all
    jobs. -/
theorem cases_of_mem_line (h : Ordered c) (hmem : key ∈ line c) :
    (∃ task results, HandsOver c key task results) ∨
      ∃ stage, c.tasks[key]? = some (.drain stage) := by
  have hqueues := (h.lock.serves.mem_iff key).1 hmem
  obtain ⟨a, ha, hqueues⟩ := (Option.any_eq_true _ _).1 hqueues
  rcases Activity.queues_cases hqueues with ⟨task, results, rfl⟩ | rfl | rfl
  · exact .inl ⟨task, results, ha⟩
  · exact .inr ⟨_, ha⟩
  · exact .inr ⟨_, ha⟩

/-- A batch that is the first in line can go on. -/
theorem canGo_of_first (h : Ordered c) (hkey : HandsOver c key task results)
    {rest : List TaskKey} (first : line c = key :: rest) :
    c.CanGo (process s) key (.batch (.submitting task results)) := by
  refine ⟨hkey, rfl, .inl ?_⟩
  show (if c.shared.retries.lock.holds key then Wait.nothing else _) = _
  rw [if_pos (h.lock.serves.holds_first h.lock.lock first)]

/-- A batch that can go on is the first in line. -/
theorem first_of_canGo (h : Ordered c)
    (can : c.CanGo (process s) key (.batch (.submitting task results))) :
    ∃ rest, line c = key :: rest := by
  have hholds : c.shared.retries.lock.holds key = true := can.of_wait rfl
  exact ⟨_, Permits.users_release h.lock.lock hholds⟩

end Ordered

/-! ## Nobody is in front but other batches -/

theorem Turns.handsOver {now : Nat} {w : World} (ready : w.retries.lock.holds key = true) :
    Turns s now key w (.batch (.submitting task results))
      (Activity.step s now key w (.batch (.submitting task results))) :=
  .plain (.submitted ready)

/-- As long as no caller that waits for all jobs comes before it, a batch has its answer after one
    turn of each batch in front and one of its own, and no time passes. -/
theorem answered_at_once (h : Ordered c) (hkey : HandsOver c key task results)
    {ahead rest : List TaskKey} (inLine : line c = ahead ++ key :: rest)
    (batches : ∀ k ∈ ahead, ∃ task results, HandsOver c k task results) :
    ∃ c', Crowd.Run (process s) noTime Crowd.noCall c (ahead.length + 1) c' ∧
      Answered c' key (.ok ⟨task.id, results, true⟩) := by
  -- The first in line always is a batch that can go on, and leaves the line.
  induction ahead generalizing c with
  | nil =>
      have can := h.canGo_of_first (s := s) hkey inLine
      exact ⟨_, .turn .begin can, Crowd.getElem?_after_self hkey⟩
  | cons first ahead ih =>
      obtain ⟨task', results', hfirst⟩ := batches first List.mem_cons_self
      have can := h.canGo_of_first (s := s) hfirst inLine
      have hholds := h.lock.serves.holds_first h.lock.lock inLine
      have hnodup := h.nodup_line
      rw [inLine, List.cons_append, List.nodup_cons] at hnodup
      have hothers : ∀ k ∈ ahead ++ key :: rest, k ≠ first := fun k hk heq =>
        hnodup.1 (heq ▸ hk)
      have hordered := h.after (Turns.handsOver (s := s) hholds) hfirst
      have hline : line (c.turn (process s) first (.batch (.submitting task' results')))
          = ahead ++ key :: rest := by
        have hall := Permits.users_release h.lock.lock hholds
        exact (List.cons.inj (hall.symm.trans inLine)).2
      obtain ⟨c', run, hanswered⟩ := ih hordered
        (Crowd.getElem?_after_of_ne (hothers key (by simp)) hkey) hline fun k hk => by
          obtain ⟨task, results, hk'⟩ := batches k (List.mem_cons_of_mem _ hk)
          exact ⟨task, results,
            Crowd.getElem?_after_of_ne (hothers k (List.mem_append_left _ hk)) hk'⟩
      refine ⟨c', ?_, hanswered⟩
      have hrun := (Crowd.Run.turn .begin can).trans run
      rwa [Nat.zero_add, Nat.add_comm] at hrun

end Line

/-! ## Jobs and batches in the course of a run -/

/-- Whether a job can have left a stage by a time: a pause must be over. -/
def Retry.MayLeave (now : Nat) : Retry → Prop
  | .trying .. => True
  | .pausing _ _ finish => ∃ t, finish = some t ∧ t ≤ now
  | .finished => False

theorem Retry.MayLeave.mono {now later : Nat} {stage : Retry} (h : stage.MayLeave now)
    (hle : now ≤ later) : stage.MayLeave later := by
  cases stage with
  | trying => trivial
  | pausing left backoff finish =>
      obtain ⟨t, ht, hcome⟩ := h
      exact ⟨t, ht, Nat.le_trans hcome hle⟩
  | finished => exact h

section Stays

variable {s : Settings} {c c' : Crowd World Activity} {key : TaskKey} {a : Activity}
  {job : RetryJob} {stage : Retry} {task : Task} {results : Results} {n : Nat}
  {pace : Crowd World Activity → Nat → Prop} {calls : Activity → Prop}

theorem mayLeave_of_canGo (can : c.CanGo (process s) key (.retry job stage)) :
    stage.MayLeave c.now := by
  cases stage with
  | trying => trivial
  | pausing left backoff finish =>
      have hcome : Probe.hasCome finish c.now = true := can.of_wait rfl
      exact Probe.hasCome_iff.1 hcome
  | finished => cases can.unfinished

/-- A job stays in its place, and at its stage until it may leave that. -/
theorem job_run (hkey : c.tasks[key]? = some (.retry job stage))
    (run : Crowd.Run (process s) pace calls c n c') :
    ∃ stage', c'.tasks[key]? = some (.retry job stage') ∧
      (stage' = stage ∨ stage.MayLeave c'.now) := by
  induction run with
  | begin => exact ⟨stage, hkey, .inl rfl⟩
  | @turn n c' other a run can ih =>
      obtain ⟨stage', hstage', hleft⟩ := ih
      by_cases hne : key = other
      · subst hne
        obtain rfl := Option.some.inj (can.here.symm.trans hstage')
        have hmay := mayLeave_of_canGo can
        refine ⟨_, Crowd.getElem?_after_self can.here, .inr ?_⟩
        rcases hleft with rfl | hleft
        · exact hmay
        · exact hleft
      · exact ⟨stage', Crowd.getElem?_after_of_ne hne hstage', hleft⟩
  | await run le may ih =>
      obtain ⟨stage', hstage', hleft⟩ := ih
      exact ⟨stage', hstage', hleft.imp_right fun h => h.mono le⟩
  | call run may ih =>
      obtain ⟨stage', hstage', hleft⟩ := ih
      exact ⟨stage', Crowd.getElem?_call_of_some hstage', hleft⟩

/-- A job that is at its end stays so. -/
theorem ended_run (hkey : c.tasks[key]? = some (.retry job .finished))
    (run : Crowd.Run (process s) pace calls c n c') :
    c'.tasks[key]? = some (.retry job .finished) := by
  obtain ⟨stage, hstage, rfl | hleft⟩ := job_run hkey run
  · exact hstage
  · exact hleft.elim

/-- A batch that leaves its result to a job gets the answer that says so. -/
theorem handsOver_run (hkey : HandsOver c key task results)
    (run : Crowd.Run (process s) pace calls c n c') :
    HandsOver c' key task results ∨ Answered c' key (.ok ⟨task.id, results, true⟩) := by
  induction run with
  | begin => exact .inl hkey
  | @turn n c' other a run can ih =>
      by_cases hne : key = other
      · subst hne
        rcases ih with hhands | hanswered
        · obtain rfl := Option.some.inj (can.here.symm.trans hhands)
          exact .inr (Crowd.getElem?_after_self can.here)
        · obtain rfl := Option.some.inj (can.here.symm.trans hanswered)
          cases can.unfinished
      · exact ih.imp (Crowd.getElem?_after_of_ne hne) (Crowd.getElem?_after_of_ne hne)
  | await run le may ih => exact ih
  | call run may ih => exact ih.imp Crowd.getElem?_call_of_some Crowd.getElem?_call_of_some

end Stays

/-! ## Behind a caller that waits for all jobs -/

section Behind

variable {log : Log} {d₀ : Disk} {here : Disk.Place} {base : String} {s : Settings}
  {c c' : Crowd World Activity} {drain key other : TaskKey} {a : Activity} {task : Task}
  {results : Results} {published : List Log.Entry} {t : Turn World Activity}

/-- Those who stay in line stay in their order. -/
theorem Ordered.sublist_line (h : Ordered c) (turns : Turns s c.now other c.shared a t)
    (hother : c.tasks[other]? = some a) {keys : List TaskKey} (order : keys.Sublist (line c))
    (stays : other ∈ keys → t.task.queues = true) : keys.Sublist (line (c.after other t)) := by
  have hblocks : a.blocks = true → c.shared.retries.lock.holds other = true := fun hb =>
    h.lock.holds other (by rw [hother, Option.any_some, hb])
  exact (turns.passes hblocks).sublist h.lock.lock order stays

/-- A batch is about to leave its result to a job, behind a caller that waits for all jobs. -/
structure Behind (drain key : TaskKey) (task : Task) (results : Results)
    (c : Crowd World Activity) : Prop where
  waits : ∃ stage, c.tasks[drain]? = some (.drain stage)
  hands : HandsOver c key task results
  order : [drain, key].Sublist (line c)

namespace Behind

theorem drain_ne (h : Behind drain key task results c) : drain ≠ key := by
  rintro rfl
  obtain ⟨stage, hstage⟩ := h.waits
  cases hstage.symm.trans h.hands

/-- The batch cannot go on. -/
theorem not_canGo (h : Behind drain key task results c) (ordered : Ordered c) :
    ¬ c.CanGo (process s) key a := by
  intro can
  obtain rfl := Option.some.inj (can.here.symm.trans h.hands)
  obtain ⟨rest, hrest⟩ := ordered.first_of_canGo can
  have horder := h.order
  have hnodup := ordered.nodup_line
  rw [hrest] at horder hnodup
  have hbehind := List.Sublist.of_cons_of_ne h.drain_ne horder
  exact (List.nodup_cons.1 hnodup).1 (hbehind.subset (by simp))

/-- The batch stays behind the caller until no job is left. -/
theorem turn (h : Behind drain key task results c)
    (hf : Faithful log d₀ here base s c published) (can : c.CanGo (process s) other a) :
    Behind drain key task results (c.turn (process s) other a) ∨
      c.shared.retries.running = 0 := by
  have hkey : key ≠ other := by
    rintro rfl
    exact h.not_canGo hf.ordered can
  have hhands := Crowd.getElem?_after_of_ne (t := a.step s c.now other c.shared) hkey h.hands
  have horder := hf.ordered.sublist_line (hf.turns can) can.here h.order
  obtain ⟨stage, hstage⟩ := h.waits
  by_cases hdrain : drain = other
  · subst hdrain
    obtain rfl := Option.some.inj (can.here.symm.trans hstage)
    have hqueues := (hf.ordered.mem_line_iff hstage).1 (h.order.subset (by simp))
    cases stage with
    | inLine =>
        exact .inl ⟨⟨.waiting, Crowd.getElem?_after_self can.here⟩, hhands, horder fun _ => rfl⟩
    | waiting => exact .inr (can.of_wait rfl)
    | fresh => cases hqueues
    | finished => cases hqueues
  · refine .inl ⟨⟨stage, Crowd.getElem?_after_of_ne hdrain hstage⟩, hhands, horder fun hmem => ?_⟩
    rcases List.mem_pair.1 hmem with rfl | rfl
    · exact absurd rfl hdrain
    · exact absurd rfl hkey

end Behind

/-- A batch stays behind a caller that waits for all jobs until all jobs that were there are at
    their end. -/
theorem behind_run {pace : Crowd World Activity → Nat → Prop} {n : Nat}
    (site : Site log d₀ here base s.moment) (refuses : s.front.Refuses)
    (start : Faithful log d₀ here base s c published) (h : Behind drain key task results c)
    (run : Crowd.Run (process s) pace Asked c n c') (room : Roomy log s c') :
    Behind drain key task results c' ∨ ∀ (k : TaskKey) job stage,
      c.tasks[k]? = some (.retry job stage) → c'.tasks[k]? = some (.retry job .finished) := by
  induction run with
  | begin => exact .inl h
  | @turn n c' other a run can ih =>
      have hroom := room.of_le (length_receipts_le_step _)
      have hnext : Crowd.Run (process s) pace Asked c' 1 (c'.turn (process s) other a) :=
        .turn .begin can
      obtain ⟨published', hfaithful⟩ := faithful site refuses start run hroom
      rcases ih hroom with hbehind | hended
      · refine (hbehind.turn hfaithful can).imp_right fun hidle k job stage hk => ?_
        obtain ⟨stage', hstage', -⟩ := job_run hk run
        rw [hfaithful.ordered.ended_of_idle hidle hstage'] at hstage'
        exact ended_run hstage' hnext
      · exact .inr fun k job stage hk => ended_run (hended k job stage hk) hnext
  | await run le may ih => exact (ih room).imp (fun h => ⟨h.waits, h.hands, h.order⟩) id
  | call run may ih =>
      refine (ih room).imp (fun h => ?_) fun hended k job stage hk =>
        Crowd.getElem?_call_of_some (hended k job stage hk)
      obtain ⟨stage, hstage⟩ := h.waits
      exact ⟨⟨stage, Crowd.getElem?_call_of_some hstage⟩, Crowd.getElem?_call_of_some h.hands,
        h.order⟩

/-- Once a batch behind a caller that waits for all jobs has its answer, all jobs that were there
    are at their end, and their pauses are over. -/
theorem ended_of_answered (site : Site log d₀ here base s.moment) (refuses : s.front.Refuses)
    (start : Faithful log d₀ here base s c published) (h : Behind drain key task results c)
    (reached : Reaches log s Asked c c') {answer : Except StoreError Outcome}
    (answered : Answered c' key answer) {k : TaskKey} {job : RetryJob} {stage : Retry}
    (hk : c.tasks[k]? = some (.retry job stage)) :
    c'.tasks[k]? = some (.retry job .finished) ∧ (stage = .finished ∨ stage.MayLeave c'.now) := by
  obtain ⟨n, run, room⟩ := reached
  rcases behind_run site refuses start h run room with hstill | hended
  · cases answered.symm.trans hstill.hands
  · have hend := hended k job stage hk
    obtain ⟨stage', hstage', hleft⟩ := job_run hk run
    obtain rfl : stage' = .finished := by
      cases hstage'.symm.trans hend
      rfl
    exact ⟨hend, hleft.imp_left Eq.symm⟩

/-- There is just one job for a task. -/
theorem Faithful.job_unique (h : Faithful log d₀ here base s c published) {job job' : RetryJob}
    {stage stage' : Retry} (hkey : c.tasks[key]? = some (.retry job stage))
    (hother : c.tasks[other]? = some (.retry job' stage')) (heq : job.id = job'.id) :
    key = other :=
  h.kept.single key other job.id (Kept.carrier_of_some hkey)
    ((Kept.carrier_of_some hother).trans (congrArg some heq.symm))

/-- Once a batch that leaves its result to a job has its answer, this says so, and there is just one
    job with the result. -/
theorem one_job_of_answered (site : Site log d₀ here base s.moment) (refuses : s.front.Refuses)
    (start : Faithful log d₀ here base s c published) (hands : HandsOver c key task results)
    (reached : Reaches log s Asked c c') {answer : Except StoreError Outcome}
    (answered : Answered c' key answer) :
    answer = .ok ⟨task.id, results, true⟩ ∧
      ∃! key' : TaskKey, ∃ stage, c'.tasks[key']? = some (.retry ⟨task.id, results⟩ stage) := by
  obtain ⟨n, run, room⟩ := reached
  obtain ⟨published', h⟩ := faithful site refuses start run room
  rcases handsOver_run hands run with hstill | hdeferred
  · cases answered.symm.trans hstill
  · cases answered.symm.trans hdeferred
    obtain ⟨key', stage, hjob⟩ := h.ordered.jobs key _ answered rfl
    exact ⟨rfl, key', ⟨stage, hjob⟩, fun other ⟨stage', hother⟩ => h.job_unique hother hjob rfl⟩

end Behind

/-! ## When the batch has its answer -/

/-- Batches on a store whose log was empty, behind a front that may refuse calls, in any order of
    turns; one of them is about to leave its result to a job.

    It is in line for the lock of the jobs, behind other such batches and callers that wait for all
    jobs. If only batches are in front, it has its answer after a turn of each of them and one of
    its own, and no time passes. But behind a caller that waits for all jobs it has no answer before
    all jobs that are there now are at their end, and before their pauses are over. Its answer says
    that the result is left to a job, and from then on there is just one job with it. -/
theorem handover_exact {log : Log} {d₀ : Disk} {here : Disk.Place} {base : String} {s : Settings}
    {clock : ClockKind} {store : Store} {disk : Disk} {workers reportWorkers : Nat} {sec : Int}
    (site : Site log d₀ here base s.moment)
    (opened : (Store.opened log).run.run sec d₀ = (.ok store, disk)) (refuses : s.front.Refuses)
    {c : Crowd World Activity}
    (reached : Reaches log s Asked
      (World.initial clock (.ofStore store disk) workers reportWorkers).crowd c)
    {key : TaskKey} {task : Task} {results : Results} (hands : HandsOver c key task results) :
    ∃ ahead rest, line c = ahead ++ key :: rest ∧
      (∀ k ∈ ahead, (∃ task results, HandsOver c k task results) ∨
        ∃ stage, c.tasks[k]? = some (.drain stage)) ∧
      ((∀ k ∈ ahead, ∃ task results, HandsOver c k task results) →
        ∃ c', Crowd.Run (process s) noTime Crowd.noCall c (ahead.length + 1) c' ∧
          Answered c' key (.ok ⟨task.id, results, true⟩)) ∧
      (∀ drain ∈ ahead, ∀ stage, c.tasks[drain]? = some (.drain stage) →
        ∀ c', Reaches log s Asked c c' → ∀ answer, Answered c' key answer →
        ∀ (k : TaskKey) job stage, c.tasks[k]? = some (.retry job stage) →
          c'.tasks[k]? = some (.retry job .finished) ∧
            (stage = .finished ∨ stage.MayLeave c'.now)) ∧
      ∀ c', Reaches log s Asked c c' → ∀ answer, Answered c' key answer →
        answer = .ok ⟨task.id, results, true⟩ ∧
          ∃! key' : TaskKey, ∃ stage, c'.tasks[key']? = some (.retry ⟨task.id, results⟩ stage) := by
  obtain ⟨n, run, room⟩ := reached
  have hfirst : Faithful log d₀ here base s
      (World.initial clock (.ofStore store disk) workers reportWorkers).crowd [] :=
    .first site opened
  obtain ⟨published, h⟩ := faithful site refuses hfirst run room
  obtain ⟨ahead, rest, hline⟩ := List.append_of_mem ((h.ordered.mem_line_iff hands).2 rfl)
  have hmem : ∀ k ∈ ahead, k ∈ line c := fun k hk => hline ▸ List.mem_append_left _ hk
  refine ⟨ahead, rest, hline, fun k hk => h.ordered.cases_of_mem_line (hmem k hk),
    answered_at_once h.ordered hands hline,
    fun drain hdrain stage hstage c' hc' answer hanswer k job stage' hk => ?_,
    fun c' hc' answer hanswer => one_job_of_answered site refuses h hands hc' hanswer⟩
  have hbehind : Behind drain key task results c := by
    refine ⟨⟨stage, hstage⟩, hands, hline ▸ ?_⟩
    exact (List.singleton_sublist.2 hdrain).append (List.singleton_sublist.2 List.mem_cons_self)
  exact ended_of_answered site refuses h hbehind hc' hanswer hk

/-! ## Two batches and a caller to look at -/

/-- A front that refuses to store results. -/
def updateRefusing : StoreFront where
  answer _ call :=
    match call with
    | .update id _ => some ⟨.error (.notFound id), some 0⟩
    | _ => none

/-- Settings with that front, under which a job makes a second attempt after a second. -/
def refusedSettings : Settings :=
  { sampleSettings with front := updateRefusing, retry := ⟨2, .ofSeconds 1⟩ }

/-- The engine with a clock that goes, before anybody has asked for anything. -/
def tickingCrowd : Crowd World Activity :=
  (World.initial .real (.ofStore (.fresh (.sample .zero)) ⟨.empty⟩) 1 1).crowd

theorem refuses_updateRefusing : updateRefusing.Refuses := by
  intro calls call d h
  cases call with
  | update id result =>
      cases h
      exact ⟨_, rfl⟩
  | _ => cases h

namespace Activity

/-- When the pause of a job is over. -/
def pauseEnd? : Activity → Option Nat
  | .retry _ (.pausing _ _ finish) => finish
  | _ => none

theorem eq_of_pauseEnd? {a : Activity} {t : Nat} (h : a.pauseEnd? = some t) :
    ∃ job left backoff, a = .retry job (.pausing left backoff (some t)) := by
  unfold pauseEnd? at h
  split at h
  · next job left backoff finish =>
    obtain rfl : finish = some t := h
    exact ⟨job, left, backoff, rfl⟩
  · cases h

theorem eq_of_blocks {a : Activity} (h : a.blocks = true) : a = .drain .waiting := by
  unfold blocks at h
  split at h
  · rfl
  · cases h

theorem eq_of_isPending_of_queues {a : Activity} (hpending : a.isPending = true)
    (hqueues : a.queues = true) : ∃ task results, a = .batch (.submitting task results) := by
  rcases queues_cases hqueues with h | rfl | rfl
  · exact h
  · cases hpending
  · cases hpending

end Activity

/-- A job pauses up to the end of the first second, a caller waits for all jobs, and a second batch
    is about to leave its result to a job; it has its answer when the first second is over. -/
theorem exists_behind_caller : ∃ (c c' : Crowd World Activity) (task : Task) (results : Results),
    Reaches (.sample .zero) refusedSettings Asked tickingCrowd c ∧ c.now = 0 ∧
    HandsOver c 2 task results ∧ c.tasks[3]? = some (.drain .waiting) ∧ line c = [3, 2] ∧
    (∃ job left backoff, c.tasks[4]? = some (.retry job (.pausing left backoff (some 1000)))) ∧
    Reaches (.sample .zero) refusedSettings Asked c c' ∧ c'.now = 1000 ∧
    ∃ answer, Answered c' 2 answer := by
  have hplay : ((((tickingCrowd.call (.batch (.start [] none))).call (.batch (.start [] none))).call
      (.drain .fresh)).play? (process refusedSettings)
      [1, 1, 1, 1, 1, 1, 1, 1, 1, 1, 4, 4, 4, 3, 3, 2, 2, 2, 2, 2, 2, 2, 2, 2]).any (fun c =>
        decide (c.shared.service.receipts.length ≤ 10) &&
        c.tasks[2]?.any (fun a => a.isPending && a.queues) && c.tasks[3]?.any Activity.blocks &&
        decide (c.tasks[4]?.bind Activity.pauseEnd? = some 1000) && decide (line c = [3, 2]) &&
        ((c.await 1000).play? (process refusedSettings) [4, 4, 4, 4, 3, 2]).any fun c' =>
          decide (c'.shared.service.receipts.length ≤ 10) &&
            c'.tasks[2]?.any (!·.isPending)) = true := by
    decide +kernel
  obtain ⟨c, hc, h⟩ := (Option.any_eq_true _ _).1 hplay
  simp only [Bool.and_eq_true, decide_eq_true_eq] at h
  obtain ⟨⟨⟨⟨⟨hroom, hbatch⟩, hdrain⟩, hpause⟩, hline⟩, hplay'⟩ := h
  obtain ⟨c', hc', h⟩ := (Option.any_eq_true _ _).1 hplay'
  simp only [Bool.and_eq_true, decide_eq_true_eq] at h
  obtain ⟨hroom', hanswered⟩ := h
  have hnow : c.now = 0 := Crowd.play?_now hc
  have hlater : Crowd.Run (process refusedSettings) Crowd.anyTime Asked c 0 (c.await 1000) :=
    .await .begin (hnow ▸ Nat.zero_le 1000) trivial
  obtain ⟨n, run⟩ :=
    (((Crowd.Run.begin.call (Asked.check _ _)).call (Asked.check _ _)).call Asked.wait).play? hc
  obtain ⟨n', run'⟩ := hlater.play? hc'
  obtain ⟨task, results, hands⟩ : ∃ task results, HandsOver c 2 task results := by
    obtain ⟨a, ha, hboth⟩ := (Option.any_eq_true _ _).1 hbatch
    obtain ⟨hpending, hqueues⟩ := Bool.and_eq_true_iff.1 hboth
    obtain ⟨task, results, rfl⟩ := Activity.eq_of_isPending_of_queues hpending hqueues
    exact ⟨task, results, ha⟩
  refine ⟨c, c', task, results, ⟨n, run, roomy_sample rfl hroom⟩, hnow, hands, ?_, hline, ?_,
    ⟨n', run', roomy_sample rfl hroom'⟩, Crowd.play?_now hc', ?_⟩
  · obtain ⟨a, ha, hblocks⟩ := (Option.any_eq_true _ _).1 hdrain
    rw [ha, Activity.eq_of_blocks hblocks]
  · obtain ⟨a, ha, hend⟩ := Option.bind_eq_some_iff.1 hpause
    obtain ⟨job, left, backoff, rfl⟩ := Activity.eq_of_pauseEnd? hend
    exact ⟨job, left, backoff, ha⟩
  · rcases handsOver_run hands run' with hstill | hanswer
    · rw [hstill] at hanswered
      cases hanswered
    · exact ⟨_, hanswer⟩

/-- While a job pauses for a second, a caller waits for all jobs. A batch that would leave its
    result to another job has no answer within this second, whatever comes. -/
theorem handover_exact_behind_caller : ∃ (c c' : Crowd World Activity) (task : Task)
    (results : Results), Reaches (.sample .zero) refusedSettings Asked tickingCrowd c ∧
    c.now = 0 ∧ HandsOver c 2 task results ∧ c.tasks[3]? = some (.drain .waiting) ∧
    (∀ c'', Reaches (.sample .zero) refusedSettings Asked c c'' →
      ∀ answer, Answered c'' 2 answer → 1000 ≤ c''.now) ∧
    Reaches (.sample .zero) refusedSettings Asked c c' ∧ c'.now = 1000 ∧
    Answered c' 2 (.ok ⟨task.id, results, true⟩) ∧
    ∃! key : TaskKey, ∃ stage, c'.tasks[key]? = some (.retry ⟨task.id, results⟩ stage) := by
  obtain ⟨c, c', task, results, hreached, hnow, hands, hwaits, hline, ⟨job, left, backoff, hjob⟩,
    hreached', hnow', answer, hanswer⟩ := exists_behind_caller
  have hopened : (Store.opened (.sample .zero)).run.run 0 ⟨.empty⟩
      = (.ok (.fresh (.sample .zero)), ⟨.empty⟩) :=
    Store.run_opened_empty (Log.begins_sample .zero) 0
  obtain ⟨ahead, rest, hahead, -, -, hbehind, honce⟩ :=
    handover_exact (s := refusedSettings) site_sample hopened refuses_updateRefusing hreached hands
  have hfirst : 3 ∈ ahead := by
    rw [hline] at hahead
    cases ahead with
    | nil => cases hahead
    | cons first others =>
        rw [(List.cons.inj hahead).1]
        exact List.mem_cons_self
  obtain ⟨rfl, hone⟩ := honce c' hreached' answer hanswer
  refine ⟨c, c', task, results, hreached, hnow, hands, hwaits, fun c'' hc'' answer ha => ?_,
    hreached', hnow', hanswer, hone⟩
  obtain ⟨-, hend | ⟨t, ht, hcome⟩⟩ :=
    hbehind 3 hfirst _ hwaits c'' hc'' answer ha 4 job _ hjob
  · cases hend
  · cases ht
    exact hcome

end Reachability.Engine
