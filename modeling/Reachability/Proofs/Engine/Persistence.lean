import Reachability.Proofs.Engine.Progress

set_option autoImplicit false

/-! # What becomes of the result of a batch

A batch has its answer as soon as its result has been offered to the store once. If the store could
not take it, a job offers it again, and callers can wait for all jobs. After that the store has been
asked just as often as there were refusals, up to the number of attempts, and if it was asked
successfully, it has the result that the caller got, live and when it is opened afresh
(`results_persist`). -/

namespace Reachability.Engine

open StoreService (Visit Site Account Tally Updating)

/-! ## What is said about a crowd -/

/-- The crowd `c'` can be reached from `c` with what callers may ask for, and the log can name a
    segment for each call that the store has received. -/
def Reaches (log : Log) (s : Settings) (calls : Activity → Prop) (c c' : Crowd World Activity) :
    Prop :=
  ∃ n, Crowd.Run (process s) Crowd.anyTime calls c n c' ∧ Roomy log s c'

/-- A batch has got its answer. -/
def Answered (c : Crowd World Activity) (key : TaskKey) (answer : Except StoreError Outcome) :
    Prop :=
  c.tasks[key]? = some (.batch (.finished answer))

/-- The store has told a batch the number of its task, or why there is none. -/
def Created (c : Crowd World Activity) (key : TaskKey) (answer : Except StoreError TaskId) : Prop :=
  ∃ stage, c.tasks[key]? = some (.batch stage) ∧ stage.created? = some answer

/-- A batch has crashed after its task was created. -/
def Crashed (c : Crowd World Activity) (key : TaskKey) (task : Task) : Prop :=
  c.tasks[key]? = some (.batch (.crashed task))

/-- All batches are at their end: they have got their answers, or crashed. -/
def AllEnded (c : Crowd World Activity) : Prop :=
  ∀ (key : TaskKey) stage, c.tasks[key]? = some (.batch stage) →
    (Activity.batch stage).isFinished = true

/-- The calls on the store that were to store the result of a task, the first one first. -/
def updates (c : Crowd World Activity) (id : TaskId) : List StoreReceipt :=
  c.shared.service.updatesOf id

/-- The first of the numbers from 1 on of which something holds. -/
def IsFirst (P : Nat → Prop) (k : Nat) : Prop := 1 ≤ k ∧ P k ∧ ∀ i, 1 ≤ i → i < k → ¬ P i

/-- The store has a task, live and when it is opened afresh, and its log has just these changes of
    it. -/
structure Shows (log : Log) (c : Crowd World Activity) (task : Task) (changes : List Log.Change) :
    Prop where
  live : c.shared.service.store.get [task.id] = [task]
  reopened : ∀ now, ∃ store, (Store.opened log).run.run now c.shared.service.disk
    = (.ok store, c.shared.service.disk) ∧ store.get [task.id] = [task]
  lines : ∀ now, ∃ replay, log.replay.run.run now c.shared.service.disk
    = (.ok replay, c.shared.service.disk) ∧
    (replay.entries.filter (Index.concerns task.id)).map (·.change) = changes

/-- What has become of the result of a batch in the end. -/
structure Persisted (log : Log) (s : Settings) (c : Crowd World Activity) (o : Outcome) :
    Prop where
  /-- The store was only asked to store what the caller got. -/
  calls : ∀ r ∈ updates c o.id, r.call = .update o.id o.results
  /-- Whichever calls for the task are let through, the store is asked up to the first of them. -/
  count : ∀ lets : Nat → Prop,
    (∀ i r, (updates c o.id)[i]? = some r → (r.answer = none ↔ lets (i + 1))) →
    (∀ k, IsFirst lets k → (updates c o.id).length = min k (1 + max 1 s.retry.maxAttempts)) ∧
    ((∀ i, 1 ≤ i → ¬ lets i) → (updates c o.id).length = 1 + max 1 s.retry.maxAttempts)
  /-- If a call was let through, the task has the result. -/
  stored : (∃ r ∈ updates c o.id, r.answer = none) → ∃ links,
    Shows log c ⟨o.id, links, o.results⟩ [.create (.fresh o.id links), .update o.id o.results]
  /-- Otherwise it has none. -/
  lost : (∀ r ∈ updates c o.id, r.answer ≠ none) → ∃ links,
    Shows log c (.fresh o.id links) [.create (.fresh o.id links)]

/-! ## The account of a batch that has its answer -/

section Account

variable {log : Log} {d₀ : Disk} {here : Disk.Place} {base : String} {s : Settings}
  {c : Crowd World Activity} {key : TaskKey} {a : Activity} {published : List Log.Entry}
  {o : Outcome}

/-- A job has an account on which a call was refused. -/
theorem Retry.Stands.account {policy : RetryPolicy} {service : StoreService} {task : Task}
    {result : Results} {stage : Retry} (h : stage.Stands policy service published task result) :
    ∃ n through stored, 0 < n ∧ Account service published task result n through stored := by
  cases stage with
  | trying left backoff visit =>
      obtain ⟨n, through, stored, hle, haccount⟩ := h.2.2.account
      exact ⟨n, through, stored, by omega, haccount⟩
  | pausing left backoff finish => exact ⟨_, _, _, Nat.lt_add_right _ Nat.one_pos, h.2.2⟩
  | finished =>
      rcases h with h | ⟨n, hpos, -, h⟩
      · exact ⟨_, _, _, Nat.lt_add_right _ Nat.one_pos, h⟩
      · exact ⟨n, _, _, hpos, h⟩

namespace Faithful

/-- The account of a batch that has its answer: a call was refused just if the result is left to a
    job. -/
theorem account (h : Faithful log d₀ here base s c published) (hkey : Answered c key (.ok o)) :
    ∃ (task : Task) (n : Nat) (through stored : Bool), task.id = o.id ∧ task.result = .empty ∧
      Account c.shared.service published task o.results n through stored ∧
      (o.deferred = true ↔ 0 < n) := by
  cases hdeferred : o.deferred with
  | false =>
      obtain ⟨task, hid, hempty, haccount⟩ := h.kept.stands key _ hkey hdeferred
      exact ⟨task, 0, true, true, hid, hempty, haccount, by decide⟩
  | true =>
      obtain ⟨key', stage, hjob⟩ := h.ordered.jobs key o hkey hdeferred
      obtain ⟨task, hid, hempty, hstands⟩ := h.kept.stands key' _ hjob
      obtain ⟨n, through, stored, hpos, haccount⟩ := hstands.account
      exact ⟨task, n, through, stored, hid, hempty, haccount, by simp [hpos]⟩

/-- The account of a batch when all jobs are at their end: all attempts were refused, or the last
    call was let through and the result was stored. -/
theorem account_of_drained (h : Faithful log d₀ here base s c published)
    (hkey : Answered c key (.ok o))
    (drained : ∀ (key : TaskKey) job stage, c.tasks[key]? = some (.retry job stage) →
      stage = .finished) :
    ∃ (task : Task), task.id = o.id ∧ task.result = .empty ∧
      (Account c.shared.service published task o.results (1 + s.retry.attempts) false false ∨
        ∃ n ≤ s.retry.attempts,
          Account c.shared.service published task o.results n true true) := by
  cases hdeferred : o.deferred with
  | false =>
      obtain ⟨task, hid, hempty, haccount⟩ := h.kept.stands key _ hkey hdeferred
      exact ⟨task, hid, hempty, .inr ⟨0, Nat.zero_le _, haccount⟩⟩
  | true =>
      obtain ⟨key', stage, hjob⟩ := h.ordered.jobs key o hkey hdeferred
      obtain ⟨task, hid, hempty, hstands⟩ := h.kept.stands key' _ hjob
      rw [drained key' _ stage hjob] at hstands
      rcases hstands with haccount | ⟨n, -, hle, haccount⟩
      · exact ⟨task, hid, hempty, .inl haccount⟩
      · exact ⟨task, hid, hempty, .inr ⟨n, hle, haccount⟩⟩

/-- Nobody has written its line and not made its change visible yet, when all batches and jobs are
    at their end. -/
theorem books_of_drained (h : Faithful log d₀ here base s c published) (ended : AllEnded c)
    (drained : ∀ (key : TaskKey) job stage, c.tasks[key]? = some (.retry job stage) →
      stage = .finished) :
    ∃ l, StoreService.Books log d₀ here base (s.moment c.now).today c.shared.service l published
      [] := by
  obtain ⟨l, ahead, hbooks, hahead⟩ := h.sound.books
  have hnil : ahead = [] := by
    rcases hahead with ⟨hnil, -⟩ | ⟨writer, change, moment, hwriter, -⟩
    · exact hnil
    · obtain ⟨a, ha, hvisit⟩ := Option.bind_eq_some_iff.1 hwriter
      cases Activity.calls_of_visit? hvisit with
      | creating caller => cases ended writer _ ha
      | updating task results => cases ended writer _ ha
      | trying job left backoff => cases drained writer _ _ ha
  exact ⟨l, hnil ▸ hbooks⟩

/-- When nobody can go on any more, all batches are at their end and all who waited have
    returned. -/
theorem ended_of_still (h : Faithful log d₀ here base s c published) (ticks : Ticks c)
    (still : c.Still (process s)) : AllEnded c ∧
      ∀ (key : TaskKey) stage, c.tasks[key]? = some (.drain stage) → stage = .finished := by
  constructor
  · intro key stage hkey
    rcases h.finished_of_still ticks still hkey with hend | ⟨worker, hworker⟩
    · exact hend
    · cases hworker
  · intro key stage hkey
    rcases h.finished_of_still ticks still hkey with hend | ⟨worker, hworker⟩
    · cases stage with
      | finished => rfl
      | _ => cases hend
    · cases hworker

end Faithful

/-- The account of a task says what the store has of it, live and when it is opened afresh. -/
theorem shows_of_account {l : Log.Ledger} {task : Task} {result : Results} {n : Nat}
    {through stored : Bool} (site : Site log d₀ here base s.moment)
    (hbooks : StoreService.Books log d₀ here base (s.moment c.now).today c.shared.service l
      published [])
    (haccount : Account c.shared.service published task result n through stored) :
    Shows log c (if stored = true then { task with result } else task)
      (.create task :: if stored = true then [.update task.id result] else []) := by
  have hid : (if stored = true then { task with result } else task).id = task.id := by
    split <;> rfl
  have hget : (Index.ofEntries published).select [task.id]
      = [if stored = true then { task with result } else task] := by
    rw [Index.select, List.filterMap_cons, haccount.get?]
    rfl
  refine ⟨?_, fun now => ⟨_, hbooks.run_opened site now, ?_⟩, fun now => ?_⟩
  · show c.shared.service.store.index.select _ = _
    rw [hid, ← hget, Index.select, Index.select, hbooks.tasks]
  · rw [hid]
    exact hget
  · obtain ⟨replay, hrun, hentries⟩ := hbooks.run_replay site now
    refine ⟨replay, hrun, ?_⟩
    rw [hid, hentries]
    exact haccount.lines

/-- The store is asked up to the first call that is let through, or as often as there are attempts
    after the first call. -/
theorem count_of_tally {id : TaskId} {result : Results} {n attempts : Nat} {through : Bool}
    {rs : List StoreReceipt} (h : Tally id result n through rs)
    (hn : (through = true ∧ n ≤ attempts) ∨ (through = false ∧ n = 1 + attempts))
    {lets : Nat → Prop} (hlets : ∀ i r, rs[i]? = some r → (r.answer = none ↔ lets (i + 1))) :
    (∀ k, IsFirst lets k → rs.length = min k (1 + attempts)) ∧
      ((∀ i, 1 ≤ i → ¬ lets i) → rs.length = 1 + attempts) := by
  have hlength := h.length_eq
  have hiff : ∀ i < rs.length, lets (i + 1) ↔ through = true ∧ i = n := fun i hi => by
    rw [← hlets i _ (List.getElem?_eq_getElem hi)]
    exact h.answer_eq_none_iff (List.getElem?_eq_getElem hi)
  -- A first number among the calls that were made is that of the one that was let through.
  have hfirst : ∀ k, IsFirst lets k → k ≤ rs.length → through = true ∧ k = n + 1 := by
    intro k hk hle
    obtain ⟨i, rfl⟩ := Nat.exists_eq_add_of_le' hk.1
    obtain ⟨hthrough, rfl⟩ := (hiff i (by omega)).1 hk.2.1
    exact ⟨hthrough, rfl⟩
  rcases hn with ⟨rfl, hle⟩ | ⟨rfl, rfl⟩
  · have hlast : lets (n + 1) := (hiff n (by rw [hlength]; exact Nat.lt_succ_self n)).2 ⟨rfl, rfl⟩
    have hlen : rs.length = n + 1 := hlength
    refine ⟨fun k hk => ?_, fun hnone => absurd hlast (hnone _ (Nat.le_add_left ..))⟩
    have hk' : k ≤ n + 1 := by
      by_contra hlt
      exact hk.2.2 (n + 1) (Nat.le_add_left ..) (Nat.lt_of_not_le hlt) hlast
    obtain ⟨-, rfl⟩ := hfirst k hk (hlen ▸ hk')
    omega
  · have hlen : rs.length = 1 + attempts := hlength
    refine ⟨fun k hk => ?_, fun _ => hlen⟩
    have hlt : ¬ k ≤ rs.length := fun hle => absurd (hfirst k hk hle).1 Bool.false_ne_true
    omega

theorem persisted_of_account {l : Log.Ledger} {task : Task}
    (site : Site log d₀ here base s.moment)
    (hbooks : StoreService.Books log d₀ here base (s.moment c.now).today c.shared.service l
      published [])
    (hid : task.id = o.id) (hempty : task.result = .empty)
    (h : Account c.shared.service published task o.results (1 + s.retry.attempts) false false ∨
      ∃ n ≤ s.retry.attempts, Account c.shared.service published task o.results n true true) :
    Persisted log s c o := by
  obtain ⟨id, links, result⟩ := task
  obtain rfl : id = o.id := hid
  obtain rfl : result = .empty := hempty
  rcases h with haccount | ⟨n, hle, haccount⟩
  · have hcalls := haccount.calls
    refine ⟨hcalls.call_eq, fun lets hlets => count_of_tally hcalls (.inr ⟨rfl, rfl⟩) hlets,
      fun hstored => ?_, fun _ => ⟨links, shows_of_account site hbooks haccount⟩⟩
    obtain ⟨r, hr, hnone⟩ := hstored
    obtain ⟨i, hi⟩ := List.getElem?_of_mem hr
    exact absurd ((hcalls.answer_eq_none_iff hi).1 hnone).1 Bool.false_ne_true
  · have hcalls := haccount.calls
    refine ⟨hcalls.call_eq, fun lets hlets => count_of_tally hcalls (.inl ⟨rfl, hle⟩) hlets,
      fun _ => ⟨links, shows_of_account site hbooks haccount⟩, fun hlost => ?_⟩
    have hlt : n < (c.shared.service.updatesOf o.id).length := by
      rw [hcalls.length_eq]
      exact Nat.lt_succ_self n
    have hlast := List.getElem?_eq_getElem hlt
    exact absurd ((hcalls.answer_eq_none_iff hlast).2 ⟨rfl, rfl⟩)
      (hlost _ (List.mem_of_getElem? hlast))

end Account

/-! ## Until all jobs are at their end -/

section Drains

variable {log : Log} {d₀ : Disk} {here : Disk.Place} {base : String} {s : Settings}
  {c c' : Crowd World Activity} {key drain : TaskKey} {a : Activity} {published : List Log.Entry}

theorem Turns.idle {now : Nat} {w : World} {t : Turn World Activity} (h : Turns s now key w a t)
    (htask : t.task = .drain .finished) : w.retries.running = 0 := by
  cases h with
  | @visits visit visit' service visiting going ready moves =>
      cases Activity.calls_of_visit? visiting <;> cases htask
  | plain h =>
      cases h with
      | drained idle => exact idle
      | _ => cases htask

/-- All batches are at their end, and a caller that waits for all jobs returns when they are, too. -/
structure Drains (drain : TaskKey) (c : Crowd World Activity) : Prop where
  ended : AllEnded c
  drained : c.tasks[drain]? = some (.drain .finished) →
    ∀ (key : TaskKey) job stage, c.tasks[key]? = some (.retry job stage) → stage = .finished

theorem Drains.turn (h : Drains drain c) (hf : Faithful log d₀ here base s c published)
    (can : c.CanGo (process s) key a) : Drains drain (c.turn (process s) key a) := by
  have hturns := hf.turns can
  have hbecomes := hturns.becomes
  have hnobatch : ∀ stage, (a.step s c.now key c.shared).task ≠ .batch stage := by
    intro stage htask
    obtain ⟨stage', rfl⟩ := (htask ▸ hbecomes).to_batch
    exact Bool.false_ne_true (can.unfinished.symm.trans (h.ended key stage' can.here))
  have hnone : ∀ b, b ∉ (a.step s c.now key c.shared).started := by
    intro b hb
    rcases hturns.started_cases hb with ⟨_, _, _, _, -, htask⟩ | ⟨_, _, -, htask⟩
    · exact hnobatch _ htask
    · exact hnobatch _ htask
  refine ⟨fun k stage hk => ?_, fun hdrain k job stage hk => ?_⟩
  · rcases Crowd.getElem?_after can.here hk with ⟨-, htask⟩ | ⟨-, hold⟩ | ⟨i, -, hi⟩
    · exact absurd htask.symm (hnobatch stage)
    · exact h.ended k stage hold
    · exact absurd (List.mem_of_getElem? hi) (hnone _)
  · rcases Crowd.getElem?_after can.here hk with ⟨-, htask⟩ | ⟨-, hold⟩ | ⟨i, -, hi⟩
    · obtain ⟨stage', rfl⟩ := (htask ▸ hbecomes).to_retry
      rcases Crowd.getElem?_after can.here hdrain with ⟨-, htask'⟩ | ⟨-, hdrain⟩ | ⟨i, -, hi⟩
      · exact absurd (htask.trans htask'.symm) nofun
      · rw [h.drained hdrain key job stage' can.here] at can
        cases can.unfinished
      · exact absurd (List.mem_of_getElem? hi) (hnone _)
    · rcases Crowd.getElem?_after can.here hdrain with ⟨-, htask'⟩ | ⟨-, hdrain⟩ | ⟨i, -, hi⟩
      · exact hf.ordered.ended_of_idle (hturns.idle htask'.symm) hold
      · exact h.drained hdrain k job stage hold
      · exact absurd (List.mem_of_getElem? hi) (hnone _)
    · exact absurd (List.mem_of_getElem? hi) (hnone _)

theorem Drains.call (h : Drains drain c) (waits : Waits a) : Drains drain (c.call a) := by
  obtain rfl : a = .drain .fresh := waits
  refine ⟨fun k stage hk => ?_, fun hdrain k job stage hk => ?_⟩
  · rcases Crowd.getElem?_call hk with ⟨-, hnew⟩ | hold
    · cases hnew
    · exact h.ended k stage hold
  · rcases Crowd.getElem?_call hk with ⟨-, hnew⟩ | hold
    · cases hnew
    · rcases Crowd.getElem?_call hdrain with ⟨-, hnew⟩ | hdrain
      · cases hnew
      · exact h.drained hdrain k job stage hold

theorem Drains.first (h : AllEnded c) : Drains c.tasks.length (c.call (.drain .fresh)) := by
  refine ⟨fun k stage hk => ?_, fun hdrain => ?_⟩
  · rcases Crowd.getElem?_call hk with ⟨-, hnew⟩ | hold
    · cases hnew
    · exact h k stage hold
  · rcases Crowd.getElem?_call hdrain with ⟨-, hnew⟩ | hold
    · cases hnew
    · rw [List.getElem?_eq_none (Nat.le_refl _)] at hold
      cases hold

/-- From when all batches are at their end on, who waits for all jobs returns when they are, too. -/
theorem drains {pace : Crowd World Activity → Nat → Prop} {n : Nat}
    (site : Site log d₀ here base s.moment) (refuses : s.front.Refuses)
    (start : Faithful log d₀ here base s c published) (h : Drains drain c)
    (run : Crowd.Run (process s) pace Waits c n c') (room : Roomy log s c') : Drains drain c' := by
  have hasked : ∀ a, Waits a → Asked a := fun _ hw => hw ▸ .wait
  -- That the crowd before a turn is faithful says what the turn can be.
  induction run with
  | begin => exact h
  | turn run can ih =>
      have hroom := room.of_le (length_receipts_le_step _)
      obtain ⟨published', hfaithful⟩ :=
        faithful site refuses start (run.mono (fun _ _ hp => hp) hasked) hroom
      exact (ih hroom).turn hfaithful can
  | await run le may ih => exact ⟨(ih room).ended, (ih room).drained⟩
  | call run may ih => exact (ih room).call may

end Drains

/-! ## What stays as it is -/

section Created

variable {log : Log} {d₀ : Disk} {here : Disk.Place} {base : String} {s : Settings}
  {c c' : Crowd World Activity} {key : TaskKey} {a : Activity} {published : List Log.Entry}

/-- What the store has told a batch about its task stays so. -/
theorem created_mono {pace : Crowd World Activity → Nat → Prop} {n : Nat}
    {v : Except StoreError TaskId} (site : Site log d₀ here base s.moment)
    (refuses : s.front.Refuses) (start : Faithful log d₀ here base s c published)
    (h : Created c key v) (run : Crowd.Run (process s) pace Asked c n c')
    (room : Roomy log s c') : Created c' key v := by
  -- Only a turn of the batch itself changes its stage.
  induction run with
  | begin => exact h
  | @turn n c' other a run can ih =>
      have hroom := room.of_le (length_receipts_le_step _)
      obtain ⟨published', hfaithful⟩ := faithful site refuses start run hroom
      obtain ⟨stage, hstage, hv⟩ := ih hroom
      by_cases hne : key = other
      · subst hne
        obtain rfl := Option.some.inj (hstage.symm.trans can.here)
        obtain ⟨stage', htask, hcreated, -⟩ := (hfaithful.turns can).becomes.of_batch
        exact ⟨stage', htask ▸ Crowd.getElem?_after_self can.here, hcreated v hv⟩
      · exact ⟨stage, Crowd.getElem?_after_of_ne hne hstage, hv⟩
  | await run le may ih => exact ih room
  | call run may ih =>
      obtain ⟨stage, hstage, hv⟩ := ih room
      exact ⟨stage, Crowd.getElem?_call_of_some hstage, hv⟩

/-- The answer of a batch is an error just if the store made no task of it. -/
theorem map_of_answered {v : Except StoreError TaskId} {answer : Except StoreError Outcome}
    (h : Created c key v) (answered : Answered c key answer) : answer.map Outcome.id = v := by
  obtain ⟨stage, hstage, hv⟩ := h
  obtain rfl := Activity.batch.inj (Option.some.inj (answered.symm.trans hstage))
  exact Option.some.inj hv

/-- Only checks go over the network. -/
theorem Turns.traffic {now : Nat} {w : World} {t : Turn World Activity}
    (h : Turns s now key w a t) (hnew : t.shared.scene.traffic ≠ w.scene.traffic) :
    ∃ parent deadline stage, a = .check parent deadline stage := by
  cases h with
  | visits => exact absurd rfl hnew
  | plain h =>
      cases h with
      | checked => exact ⟨_, _, _, rfl⟩
      | reported => exact ⟨_, _, _, rfl⟩
      | _ => exact absurd rfl hnew

/-- What the store is asked to store belongs to a task that was created for a batch. -/
theorem Faithful.created_of_update (h : Faithful log d₀ here base s c published) {id : TaskId}
    (hne : updates c id ≠ []) : ∃ key, Created c key (.ok id) := by
  by_contra hnone
  refine hne (h.kept.unheard id fun key hkey => hnone ?_).calls
  obtain ⟨a, ha, hcarries⟩ := Option.bind_eq_some_iff.1 hkey
  cases a with
  | batch stage =>
      refine ⟨key, stage, ha, ?_⟩
      cases stage with
      | creating caller visit =>
          have hstands : StoreService.Creating _ _ visit := h.kept.stands key _ ha
          rcases hstands.told_or_unheard hcarries with ⟨task, rfl, rfl⟩ | hunheard
          · rfl
          · exact absurd hunheard.calls hne
      | finished answer =>
          cases answer with
          | ok o =>
              simp only [Activity.carries?] at hcarries
              split at hcarries
              · cases hcarries
              · obtain rfl : o.id = id := Option.some.inj hcarries
                rfl
          | error e => cases hcarries
      | _ =>
          cases hcarries
          rfl
  | retry job stage =>
      cases hcarries
      obtain ⟨key', hbatch⟩ := h.ordered.origins key job stage ha
      exact ⟨key', _, hbatch, rfl⟩
  | _ => cases hcarries

end Created

/-! ## Batches that crash -/

section Crashes

variable {log : Log} {d₀ : Disk} {here : Disk.Place} {base : String} {s : Settings}
  {c c' : Crowd World Activity} {key : TaskKey} {a : Activity} {published : List Log.Entry}

/-- What a batch says about the time that its checks may take: it ends before time does if they have
    been started, and not if the batch has crashed. -/
def Activity.Dated (s : Settings) (now : Nat) : Activity → Prop
  | batch (.crashed _) => s.horizon ≤ now + s.limit
  | batch stage => stage.isStarted = true → s.limit < s.horizon
  | _ => True

theorem Activity.Dated.later {now later : Nat} (h : a.Dated s now) (hle : now ≤ later) :
    a.Dated s later := by
  cases a with
  | batch stage =>
      cases stage with
      | crashed task => exact Nat.le_trans h (Nat.add_le_add_right hle _)
      | _ => exact h
  | _ => exact trivial

theorem Turns.dated {now : Nat} {w : World} {t : Turn World Activity}
    (h : Turns s now key w a t) (before : a.Dated s now) :
    t.task.Dated s now ∧ ∀ b ∈ t.started, b.Dated s now := by
  cases h with
  | @visits visit visit' service visiting going ready moves =>
      cases Activity.calls_of_visit? visiting with
      | creating caller => exact ⟨nofun, List.forall_mem_nil _⟩
      | updating task results => exact ⟨before, List.forall_mem_nil _⟩
      | trying job left backoff => exact ⟨trivial, List.forall_mem_nil _⟩
  | plain h =>
      cases h with
      | launched deadline intime =>
          refine ⟨fun _ => Nat.lt_of_le_of_lt (Nat.le_add_left ..) intime, fun b hb => ?_⟩
          obtain ⟨link, -, rfl⟩ := List.mem_map.1 hb
          exact trivial
      | crashed late => exact ⟨late, List.forall_mem_nil _⟩
      | rejected => exact ⟨nofun, List.forall_mem_nil _⟩
      | submitted ready =>
          refine ⟨before, fun b hb => ?_⟩
          obtain rfl := List.mem_singleton.1 hb
          exact trivial
      | gathered | stored | deferred => exact ⟨before, List.forall_mem_nil _⟩
      | _ => exact ⟨trivial, List.forall_mem_nil _⟩

/-- So it is in every run. -/
theorem dated {pace : Crowd World Activity → Nat → Prop} {first : Crowd World Activity} {n : Nat}
    (site : Site log d₀ here base s.moment) (refuses : s.front.Refuses)
    (start : Faithful log d₀ here base s first published)
    (hdated : ∀ (key : TaskKey) a, first.tasks[key]? = some a → a.Dated s first.now)
    (run : Crowd.Run (process s) pace Asked first n c) (room : Roomy log s c) :
    ∀ (key : TaskKey) a, c.tasks[key]? = some a → a.Dated s c.now := by
  induction run with
  | begin => exact hdated
  | turn run can ih =>
      have hroom := room.of_le (length_receipts_le_step _)
      obtain ⟨published', hfaithful⟩ := faithful site refuses start run hroom
      have hturn := (hfaithful.turns can).dated (ih hroom _ _ can.here)
      exact Crowd.forall_after can.here (ih hroom) hturn.1 hturn.2
  | await run le may ih => exact fun k b hb => (ih room k b hb).later le
  | call run may ih =>
      intro k b hb
      rcases Crowd.getElem?_call hb with ⟨-, rfl⟩ | hold
      · cases may with
        | check links deadline => exact nofun
        | wait => exact trivial
      · exact ih room k b hold

/-- A batch whose task has been created crashes in its next turn just if the time that its checks
    may take does not end before time does. -/
theorem crashed_turn_iff {caller : Option Nat} {task : Task}
    (can : c.CanGo (process s) key (.batch (.creating caller (.answered (.ok (.task task)))))) :
    Crashed (c.turn (process s) key (.batch (.creating caller (.answered (.ok (.task task)))))) key
      task ↔ s.horizon ≤ c.now + s.limit := by
  have hself : (c.turn (process s) key (.batch (.creating caller (.answered (.ok (.task task)))))
      ).tasks[key]? = some (Activity.step s c.now key c.shared
        (.batch (.creating caller (.answered (.ok (.task task)))))).task :=
    Crowd.getElem?_after_self can.here
  rw [← BatchCall.deadline?_eq_none_iff caller]
  cases hd : BatchCall.deadline? s c.now caller with
  | some d =>
      rw [Activity.step_launch task hd] at hself
      refine ⟨fun hcrashed => ?_, nofun⟩
      cases hself.symm.trans hcrashed
  | none =>
      rw [Activity.step_crash task hd] at hself
      exact ⟨fun _ => rfl, fun _ => hself⟩

namespace Faithful

/-- The account of a batch that has crashed: its task was created, and the store was never asked to
    store a result. -/
theorem account_of_crashed (h : Faithful log d₀ here base s c published) {task : Task}
    (hkey : Crashed c key task) : task.result = .empty ∧
      Account c.shared.service published task .empty 0 false false :=
  have hstands := h.kept.stands key _ hkey
  ⟨hstands.1, hstands.2 .empty⟩

theorem updates_of_crashed (h : Faithful log d₀ here base s c published) {task : Task}
    (hkey : Crashed c key task) : updates c task.id = [] :=
  List.eq_nil_of_length_eq_zero (h.account_of_crashed hkey).2.calls.length_eq

end Faithful

end Crashes

/-- Batches on a store whose log was empty, behind a front that may refuse calls, in any order of
    turns.

    A batch leaves its result to a job just if the first call with it was refused. What the store
    answers to the creation of a task stays its answer, and that of the batch if it gets one. Then
    nothing is asked of the network, or of the store, for a batch of which no task was created.
    Unless the clock or the front holds somebody up for ever, there are only so many turns, and when
    nobody can go on, all batches are at their end and all who waited have returned. When a caller
    that began to wait after the last batch had come to its end returns, the results have been
    persisted.

    A batch whose task was created fails all the same if the time that its checks may take would end
    when there is no time any more, and only then: it crashes. Its task stays in the store, but the
    store is never asked to store a result. -/
theorem results_persist {log : Log} {d₀ : Disk} {here : Disk.Place} {base : String} {s : Settings}
    {clock : ClockKind} {store : Store} {disk : Disk} {workers reportWorkers : Nat} {sec : Int}
    (site : Site log d₀ here base s.moment)
    (opened : (Store.opened log).run.run sec d₀ = (.ok store, disk)) (refuses : s.front.Refuses)
    {c : Crowd World Activity}
    (reached : Reaches log s Asked
      (World.initial clock (.ofStore store disk) workers reportWorkers).crowd c) :
    (∀ key o, Answered c key (.ok o) →
      (o.deferred = true ↔ ∃ r, (updates c o.id)[0]? = some r ∧ r.answer.isSome = true)) ∧
    (∀ key v, Created c key v → ∀ c', Reaches log s Asked c c' → Created c' key v ∧
      ∀ answer, Answered c' key answer → answer.map Outcome.id = v) ∧
    (∀ key a, c.CanGo (process s) key a →
      (c.turn (process s) key a).shared.scene.traffic ≠ c.shared.scene.traffic →
      ∃ parent deadline stage id, a = .check parent deadline stage ∧ Created c parent (.ok id)) ∧
    (∀ id, updates c id ≠ [] → ∃ key, Created c key (.ok id)) ∧
    (clock ≠ .stalled → Prompt s.front → ∀ m c',
      Crowd.Run (process s) Crowd.anyTime Crowd.noCall c m c' → Roomy log s c' →
      m ≤ c.total (Activity.rank s.retry) ∧
      (c'.Still (process s) → AllEnded c' ∧
        ∀ (key : TaskKey) stage, c'.tasks[key]? = some (.drain stage) → stage = .finished)) ∧
    (AllEnded c → ∀ c', Reaches log s Waits (c.call (.drain .fresh)) c' →
      c'.tasks[c.tasks.length]? = some (.drain .finished) →
      (∀ key o, Answered c' key (.ok o) → Persisted log s c' o) ∧
      ∀ key task, Crashed c' key task → task.result = .empty ∧ Shows log c' task [.create task]) ∧
    (∀ key caller task,
      c.CanGo (process s) key (.batch (.creating caller (.answered (.ok (.task task))))) →
      (Crashed (c.turn (process s) key
          (.batch (.creating caller (.answered (.ok (.task task)))))) key task ↔
        s.horizon ≤ c.now + s.limit)) ∧
    (∀ key task, Crashed c key task →
      s.horizon ≤ c.now + s.limit ∧ Created c key (.ok task.id) ∧ updates c task.id = []) ∧
    ∀ key o, Answered c key (.ok o) → s.limit < s.horizon := by
  obtain ⟨n, run, room⟩ := reached
  have hfirst : Faithful log d₀ here base s
      (World.initial clock (.ofStore store disk) workers reportWorkers).crowd [] :=
    .first site opened
  obtain ⟨published, h⟩ := faithful site refuses hfirst run room
  have hdated := dated site refuses hfirst
    (fun k b hb => by rw [World.eq_idle_of_crowd hb]; exact trivial) run room
  refine ⟨fun key o ho => ?_, fun key v hv c' hc' => ?_, fun key a can hnew => ?_,
    fun id hne => h.created_of_update hne, fun hclock prompt m c' run' room' => ?_,
    fun hall c' hc' hdrain => ?_, fun key caller task can => crashed_turn_iff can,
    fun key task hcrashed => ?_, fun key o ho => hdated key _ ho rfl⟩
  · obtain ⟨task, n, through, stored, hid, -, haccount, hdeferred⟩ := h.account ho
    rw [hdeferred, updates, ← hid]
    exact haccount.calls.pos_iff
  · obtain ⟨m, run', room'⟩ := hc'
    have hcreated := created_mono site refuses h hv run' room'
    exact ⟨hcreated, fun answer hanswer => map_of_answered hcreated hanswer⟩
  · obtain ⟨parent, deadline, stage, rfl⟩ := (h.turns can).traffic hnew
    obtain ⟨batch, hbatch, hstarted⟩ := h.ordered.parents key parent deadline stage can.here
    obtain ⟨id, hid⟩ := BatchCall.created?_of_isStarted hstarted
    exact ⟨parent, deadline, stage, id, rfl, batch, hbatch, hid⟩
  · have hasked : ∀ a : Activity, Crowd.noCall a → Asked a := fun _ hno => hno.elim
    have hrun := run.trans (run'.mono (fun _ _ hp => hp) hasked)
    refine ⟨Nat.le_trans (Nat.le_add_right ..) (turns_le site refuses h run' room'),
      fun still => ?_⟩
    obtain ⟨published', h'⟩ := faithful site refuses hfirst hrun room'
    have hticks : Ticks (World.initial clock (.ofStore store disk) workers reportWorkers).crowd :=
      ⟨hclock, fun k b hb => by rw [World.eq_idle_of_crowd hb]; rfl⟩
    have hticks' := ticks site refuses prompt hfirst hticks hrun room'
    exact h'.ended_of_still hticks' still
  · obtain ⟨m, run', room'⟩ := hc'
    have hasked : ∀ a, Waits a → Asked a := fun _ hw => hw ▸ .wait
    have hcalled := h.call .wait
    have hdrains := drains site refuses hcalled (.first hall) run' room'
    obtain ⟨published', h'⟩ :=
      faithful site refuses hcalled (run'.mono (fun _ _ hp => hp) hasked) room'
    have hdrained := hdrains.drained hdrain
    obtain ⟨l, hbooks⟩ := h'.books_of_drained hdrains.ended hdrained
    refine ⟨fun key o ho => ?_, fun key task hcrashed => ?_⟩
    · obtain ⟨task, hid, hempty, haccount⟩ := h'.account_of_drained ho hdrained
      exact persisted_of_account site hbooks hid hempty haccount
    · obtain ⟨hempty, haccount⟩ := h'.account_of_crashed hcrashed
      exact ⟨hempty, shows_of_account site hbooks haccount⟩
  · exact ⟨hdated key _ hcrashed, ⟨_, hcrashed, rfl⟩, h.updates_of_crashed hcrashed⟩

/-! ## A batch to look at -/

/-- A front that refuses the first call that is to store the result of the first task. -/
def onceRefusing : StoreFront where
  answer calls call :=
    if (call.updates 1 && !calls.any (·.updates 1)) = true then
      some ⟨.error (.notFound 1), some 0⟩
    else none

/-- Settings with that front, on a day that does not end. -/
def sampleSettings : Settings where
  probe := ⟨.none, .standard⟩
  front := onceRefusing
  moment _ := Log.sampleMoment 0
  timeout := 0
  retry := .standard
  render _ := .text ""

/-- The engine before anybody has asked for anything. -/
def sampleCrowd : Crowd World Activity :=
  (World.initial .manual (.ofStore (.fresh (.sample .zero)) ⟨.empty⟩) 1 1).crowd

theorem site_sample : Site (.sample .zero) ⟨.empty⟩ [] "tasks.json" sampleSettings.moment where
  begins := Log.begins_sample .zero
  forever := rfl
  plain _ := Log.plain_sampleMoment 0
  valid _ := Log.valid_sampleMoment 0
  forward _ _ _ := CivilDate.upTo_refl _

/-- After a few calls there still is a name for each. -/
theorem roomy_sample {s : Settings} (hmoment : s.moment = sampleSettings.moment)
    {c : Crowd World Activity} (hle : c.shared.service.receipts.length ≤ 10) :
    Roomy (.sample .zero) s c := by
  intro t n hn
  rw [hmoment]
  exact Log.canName_sample (Nat.lt_of_lt_of_le hn hle)

theorem refuses_onceRefusing : onceRefusing.Refuses := by
  intro calls call d h
  simp only [onceRefusing] at h
  split at h
  · cases h
    exact ⟨_, rfl⟩
  · cases h

/-- The outcome of a batch that has one. -/
def Activity.outcome? : Activity → Option Outcome
  | .batch (.finished (.ok o)) => some o
  | _ => none

/-- Whether an activity is a batch that is not at its end. -/
def Activity.isPending : Activity → Bool
  | .batch (.finished _) => false
  | .batch (.crashed _) => false
  | .batch _ => true
  | _ => false

/-- Whether an activity has waited for all jobs. -/
def Activity.isDrained : Activity → Bool
  | .drain .finished => true
  | _ => false

theorem Activity.eq_of_outcome? {a : Activity} {o : Outcome} (h : a.outcome? = some o) :
    a = .batch (.finished (.ok o)) := by
  unfold outcome? at h
  split at h
  · cases h
    rfl
  · cases h

theorem Activity.eq_of_isDrained {a : Activity} (h : a.isDrained = true) :
    a = .drain .finished := by
  unfold isDrained at h
  split at h
  · rfl
  · cases h

theorem allEnded_of_all {c : Crowd World Activity} (h : c.tasks.all (!·.isPending) = true) :
    AllEnded c := by
  intro key stage hkey
  have hend := List.all_eq_true.1 h _ (List.mem_of_getElem? hkey)
  cases stage with
  | finished | crashed => rfl
  | _ => cases hend

theorem results_persist_after_refusal : ∃ (c c' : Crowd World Activity) (o : Outcome),
    Reaches (.sample .zero) sampleSettings Asked sampleCrowd c ∧ AllEnded c ∧
    Reaches (.sample .zero) sampleSettings Waits (c.call (.drain .fresh)) c' ∧
    c'.tasks[c.tasks.length]? = some (.drain .finished) ∧ Answered c' 1 (.ok o) ∧
    o.deferred = true ∧ (∃ r ∈ updates c' o.id, r.answer = none) ∧
    Persisted (.sample .zero) sampleSettings c' o := by
  have hplay : ((sampleCrowd.call (.batch (.start ["http://localhost"] none))).play?
      (process sampleSettings) [1, 1, 1, 1, 1, 2, 2, 2, 2, 1, 1, 1, 1, 1]).any (fun c =>
        decide (c.shared.service.receipts.length ≤ 10) && c.tasks.all (!·.isPending) &&
        ((c.call (.drain .fresh)).play? (process sampleSettings) [4, 3, 3, 3, 3, 3, 4, 4]).any
          fun c' => decide (c'.shared.service.receipts.length ≤ 10) &&
            c'.tasks[c.tasks.length]?.any Activity.isDrained &&
            (c'.tasks[1]?.bind Activity.outcome?).any fun o =>
              o.deferred && (updates c' o.id).any (·.answer.isNone)) = true := by
    decide +kernel
  obtain ⟨c, hc, h⟩ := (Option.any_eq_true _ _).1 hplay
  simp only [Bool.and_eq_true, decide_eq_true_eq] at h
  obtain ⟨⟨hroom, hanswered⟩, hplay'⟩ := h
  obtain ⟨c', hc', h⟩ := (Option.any_eq_true _ _).1 hplay'
  simp only [Bool.and_eq_true, decide_eq_true_eq] at h
  obtain ⟨⟨hroom', hdrained⟩, hbatch⟩ := h
  have hall : AllEnded c := allEnded_of_all hanswered
  have hdrain : c'.tasks[c.tasks.length]? = some (.drain .finished) := by
    obtain ⟨a, ha, hend⟩ := (Option.any_eq_true _ _).1 hdrained
    rw [ha, Activity.eq_of_isDrained hend]
  obtain ⟨o, ho, hdeferred, r, hr, hnone⟩ : ∃ o, Answered c' 1 (.ok o) ∧ o.deferred = true ∧
      ∃ r ∈ updates c' o.id, r.answer = none := by
    obtain ⟨o, ho, hend⟩ := (Option.any_eq_true _ _).1 hbatch
    obtain ⟨a, ha, hoa⟩ := Option.bind_eq_some_iff.1 ho
    obtain ⟨hdeferred, hsome⟩ := Bool.and_eq_true_iff.1 hend
    obtain ⟨r, hr, hnone⟩ := List.any_eq_true.1 hsome
    have hanswer : Answered c' 1 (.ok o) := by rw [Answered, ha, Activity.eq_of_outcome? hoa]
    exact ⟨o, hanswer, hdeferred, r, hr, Option.isNone_iff_eq_none.1 hnone⟩
  have hreached : Reaches (.sample .zero) sampleSettings Asked sampleCrowd c := by
    obtain ⟨n, run⟩ := (Crowd.Run.begin.call (Asked.check _ _)).play? hc
    exact ⟨n, run, roomy_sample rfl hroom⟩
  have hreached' : Reaches (.sample .zero) sampleSettings Waits (c.call (.drain .fresh)) c' := by
    obtain ⟨n, run⟩ := Crowd.Run.begin.play? hc'
    exact ⟨n, run, roomy_sample rfl hroom'⟩
  have hopened : (Store.opened (.sample .zero)).run.run 0 ⟨.empty⟩
      = (.ok (.fresh (.sample .zero)), ⟨.empty⟩) :=
    Store.run_opened_empty (Log.begins_sample .zero) 0
  have hpersisted := results_persist site_sample hopened refuses_onceRefusing hreached
  exact ⟨c, c', o, hreached, hall, hreached', hdrain, ho, hdeferred, ⟨r, hr, hnone⟩,
    (hpersisted.2.2.2.2.2.1 hall c' hreached' hdrain).1 1 o ho⟩

/-- Settings under which the checks of a batch may take longer than there is time. -/
def sampleEndless : Settings := { sampleSettings with timeout := 1000 * Clock.endOfTime }

/-- The task of a batch, if it has crashed. -/
def Activity.crashed? : Activity → Option Task
  | .batch (.crashed task) => some task
  | _ => none

theorem Activity.eq_of_crashed? {a : Activity} {task : Task} (h : a.crashed? = some task) :
    a = .batch (.crashed task) := by
  unfold crashed? at h
  split at h
  · cases h
    rfl
  · cases h

/-- Under such settings a batch whose task was created crashes. -/
theorem crashed_of_endless : ∃ (c : Crowd World Activity) (task : Task),
    Reaches (.sample .zero) sampleEndless Asked sampleCrowd c ∧ Crashed c 1 task ∧
      c.shared.service.store.get [1] = [task] := by
  have hplay : ((sampleCrowd.call (.batch (.start ["http://localhost"] none))).play?
      (process sampleEndless) [1, 1, 1, 1, 1]).any (fun c =>
        decide (c.shared.service.receipts.length ≤ 10) &&
        (c.tasks[1]?.bind Activity.crashed?).any fun task =>
          decide (c.shared.service.store.get [1] = [task])) = true := by
    decide +kernel
  obtain ⟨c, hc, h⟩ := (Option.any_eq_true _ _).1 hplay
  obtain ⟨hroom, hcrash⟩ := Bool.and_eq_true_iff.1 h
  obtain ⟨task, htask, hget⟩ := (Option.any_eq_true _ _).1 hcrash
  obtain ⟨a, ha, hcrashed⟩ := Option.bind_eq_some_iff.1 htask
  obtain ⟨n, run⟩ := (Crowd.Run.begin.call (Asked.check _ _)).play? hc
  exact ⟨c, task, ⟨n, run, roomy_sample rfl (of_decide_eq_true hroom)⟩,
    ha.trans (congrArg some (Activity.eq_of_crashed? hcrashed)), of_decide_eq_true hget⟩

end Reachability.Engine
