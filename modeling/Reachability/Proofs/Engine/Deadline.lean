import Reachability.Proofs.Engine.Merging
import Reachability.Proofs.Engine.Permits
import Reachability.Proofs.Engine.Steady
import Reachability.Proofs.Engine.Targets

set_option autoImplicit false

/-! # The deadline of a batch

All checks of a batch have one deadline. Whatever the network does, and if it never answers, the
batch has its answer when the deadline comes, or at once if it has come already; no check makes a
request from then on, and a check that has not got a permit touches nothing. A batch whose checks
may take longer than there is time has no deadline, and no answer either (`answered_in_time`). The
store must answer at once, and nobody must be waiting for all jobs: a batch that cannot store its
result waits for the lock of the jobs. -/

namespace Reachability.Engine

open StoreService (Visit)

/-- What callers ask for while a batch is checked: another batch, or a report. -/
def Meanwhile (a : Activity) : Prop := Requested a ∧ a ≠ .drain .fresh

/-- Whether just the given links have a status. -/
def Covers (links : List String) (results : Results) : Prop :=
  ∀ link, (results.get? link).isSome = true ↔ link ∈ links

/-- A batch is at its end. -/
def Ended (c : Crowd World Activity) (key : TaskKey) : Prop :=
  ∃ stage, c.tasks[key]? = some (.batch stage) ∧ (Activity.batch stage).isFinished = true

/-- When a batch is at its end at the latest: at its deadline, but not before its start, and at its
    start if it has no deadline. -/
def BatchCall.due (start : Nat) (deadline? : Option Nat) : Nat := max start (deadline?.getD start)

/-- How far a batch can be at a time that was called for at its start: until it knows its task no
    time passes, and its end comes in time. -/
def BatchCall.Governed (links : List String) (caller : Option Nat) (start : Nat)
    (deadline? : Option Nat) (now : Nat) : BatchCall → Prop
  | .creating caller' visit => caller' = caller ∧ visit.Creates links ∧ now = start
  | .joining task deadline =>
    task.links = links ∧ deadline? = some deadline ∧ now ≤ due start deadline?
  | .updating _ results _ =>
    Covers links results ∧ deadline?.isSome = true ∧ now ≤ due start deadline?
  | .submitting _ results =>
    Covers links results ∧ deadline?.isSome = true ∧ now ≤ due start deadline?
  | .finished (.ok o) => Covers links o.results ∧ deadline?.isSome = true
  | .finished (.error _) => True
  | .crashed _ => deadline? = none

/-- What holds of a batch, and of the crowd around it, from its start on. -/
structure Governed (s : Settings) (links : List String) (caller : Option Nat) (start : Nat)
    (key : TaskKey) (c : Crowd World Activity) : Prop where
  stage : ∃ stage, c.tasks[key]? = some (.batch stage) ∧
    stage.Governed links caller start (BatchCall.deadline? s start caller) c.now
  found : ∀ task deadline, c.tasks[key]? = some (.batch (.joining task deadline)) →
    ∀ link, ((c.shared.found key).get? link).isSome = true → link ∈ links
  undrained : Undrained c

/-! ## The batch itself -/

section Batch

variable {s : Settings} {links : List String} {caller : Option Nat} {start now : Nat}
  {key : TaskKey} {w : World}

/-- When all checks are at their end, just the submitted links have a status. -/
theorem covers_completed {found : Results}
    (hfound : ∀ link, (found.get? link).isSome = true → link ∈ links) :
    Covers links (BatchCall.completed links found) := by
  intro link
  rw [BatchCall.get?_completed]
  cases hlink : found.get? link with
  | some status => exact iff_of_true rfl (hfound link (by rw [hlink]; rfl))
  | none =>
      by_cases hmem : link ∈ links
      · rw [if_pos hmem]
        exact iff_of_true rfl hmem
      · rw [if_neg hmem]
        exact iff_of_false nofun hmem

/-- A turn of the batch. -/
theorem BatchCall.Governed.step {stage : BatchCall}
    (h : stage.Governed links caller start (BatchCall.deadline? s start caller) now)
    (refuses : s.front.Refuses)
    (hfound : ∀ task deadline, stage = .joining task deadline →
      ∀ link, ((w.found key).get? link).isSome = true → link ∈ links) :
    (stage.step s now key w).call.Governed links caller start (BatchCall.deadline? s start caller)
        now ∧
      ∀ task deadline, (stage.step s now key w).call = .joining task deadline →
        ∀ link, (((stage.step s now key w).world.found key).get? link).isSome = true →
          link ∈ links := by
  cases stage with
  | creating caller' visit =>
      obtain ⟨rfl, hcreates, rfl⟩ := h
      have hmoves := StoreService.moves_step s.front (s.moment now) now key w.service visit
      have hnext := hmoves.creates refuses hcreates
      cases visit with
      | answered answer =>
          rcases hcreates with ⟨e, rfl⟩ | ⟨task, rfl, hlinks⟩
          · exact ⟨trivial, by rintro _ _ ⟨⟩⟩
          · cases hdeadline : deadline? s now caller' with
            | some deadline =>
                rw [BatchCall.step, BatchCall.launch_of_some hdeadline]
                refine ⟨⟨hlinks, rfl, Nat.le_max_left ..⟩, fun _ _ _ link hlink => ?_⟩
                rw [World.found, Table.get?_insert, if_pos rfl] at hlink
                cases hlink
            | none =>
                rw [BatchCall.step, BatchCall.launch_of_none hdeadline]
                exact ⟨rfl, by rintro _ _ ⟨⟩⟩
      | _ => exact ⟨⟨rfl, hnext, rfl⟩, by rintro _ _ ⟨⟩⟩
  | joining task deadline =>
      obtain ⟨rfl, hdeadline, hintime⟩ := h
      have hsome := Option.isSome_of_eq_some hdeadline
      exact ⟨⟨covers_completed (hfound task _ rfl), hsome, hintime⟩, by rintro _ _ ⟨⟩⟩
  | updating task results visit =>
      cases visit with
      | answered answer =>
          cases answer with
          | ok reply => exact ⟨⟨h.1, h.2.1⟩, by rintro _ _ ⟨⟩⟩
          | error e => exact ⟨h, by rintro _ _ ⟨⟩⟩
      | _ => exact ⟨h, by rintro _ _ ⟨⟩⟩
  | submitting task results => exact ⟨⟨h.1, h.2.1⟩, by rintro _ _ ⟨⟩⟩
  | finished answer => exact ⟨h, by rintro _ _ ⟨⟩⟩
  | crashed task => exact ⟨h, by rintro _ _ ⟨⟩⟩

theorem BatchCall.Governed.intime {stage : BatchCall} {deadline? : Option Nat}
    (h : stage.Governed links caller start deadline? now)
    (going : Activity.isFinished (.batch stage) = false) : now ≤ due start deadline? := by
  cases stage with
  | creating caller' visit => exact h.2.2 ▸ Nat.le_max_left ..
  | joining task deadline => exact h.2.2
  | updating task results visit => exact h.2.2
  | submitting task results => exact h.2.2
  | finished answer => cases going
  | crashed task => cases going

/-- A batch that has a deadline gets an answer. -/
theorem BatchCall.Governed.finished {stage : BatchCall} {deadline : Nat}
    (h : stage.Governed links caller start (some deadline) now)
    (ended : Activity.isFinished (.batch stage) = true) : ∃ answer, stage = .finished answer := by
  cases stage with
  | finished answer => exact ⟨answer, rfl⟩
  | crashed task => cases h
  | _ => cases ended

end Batch

/-! ## The turns of others -/

section Others

variable {s : Settings} {now : Nat} {key : TaskKey} {w : World} {a : Activity}
  {t : Turn World Activity}

/-- What has come of the links of a batch changes, in the turns of others, only when one of its
    checks ends. -/
theorem Deals.found_cases (h : Deals s now key w a t) {batch : TaskKey} (hne : batch ≠ key)
    {p : Progress} (hp : w.batches.get? batch = some p) :
    t.shared.found batch = w.found batch ∨ ∃ deadline check status,
      a = .check batch deadline check ∧ check.isFinished = false ∧
        t.shared.found batch = (w.found batch).insert check.link status := by
  have hreport : ∀ {parent : TaskKey} {deadline : Nat} {check : LinkCheck} {link : String}
      {status : LinkStatus} {permits : Permits},
      a = .check parent deadline check → check.isFinished = false → check.link = link →
      t.shared = LinkCheck.report parent link status { w with permits } →
      t.shared.found batch = w.found batch ∨ ∃ deadline check status,
        a = .check batch deadline check ∧ check.isFinished = false ∧
          t.shared.found batch = (w.found batch).insert check.link status := by
    rintro parent deadline check link status permits rfl going rfl hshared
    rw [hshared]
    by_cases hparent : parent = batch
    · subst hparent
      refine .inr ⟨deadline, check, status, rfl, going, ?_⟩
      rw [found_report (w := { w with permits }) hp, if_pos rfl, World.found, hp]
    · refine .inl ?_
      rw [World.found, LinkCheck.get?_report_of_ne (Ne.symm hparent), World.found]
  cases h with
  | launches =>
      refine .inl ?_
      rw [World.found, Table.get?_insert, if_neg hne, World.found]
  | gathers =>
      refine .inl ?_
      rw [World.found, Table.get?_erase, if_neg hne, World.found]
  | queues => exact .inl rfl
  | starts => exact .inl rfl
  | givesUp => exact hreport rfl rfl rfl rfl
  | probes => exact .inl rfl
  | ends => exact hreport rfl rfl rfl rfl
  | aside haway =>
      refine .inl ?_
      rw [World.found, World.found, haway.batches]

/-- Nobody begins to wait for all jobs but by a call. -/
theorem Acts.of_drain (h : Acts s now key w a t) :
    (∀ stage, t.task = .drain stage → ∃ stage', a = .drain stage') ∧
      ∀ b ∈ t.started, ∀ stage, b ≠ .drain stage := by
  cases h with
  | @visits visit visit' service visiting going ready moves =>
      refine ⟨fun stage htask => ?_, List.forall_mem_nil _⟩
      have hvisit := Activity.visiting?_withVisiting visiting visit'
      have htask' : a.withVisiting visit' = .drain stage := htask
      rw [htask'] at hvisit
      cases hvisit
  | plain h =>
      refine ⟨fun stage htask => ?_, fun b hb stage => ?_⟩
      · have hbecomes := (Turns.plain h).becomes
        rw [htask] at hbecomes
        cases hbecomes with
        | drain => exact ⟨_, rfl⟩
      · rcases (Turns.plain h).started_cases hb with ⟨_, _, _, _, rfl, -⟩ | ⟨_, _, rfl, -⟩ <;>
          exact nofun
  | reports h =>
      refine ⟨fun stage htask => ?_, fun b hb => ?_⟩
      · have hafter := h.after
        rw [htask] at hafter
        cases hafter
      · rw [h.started] at hb
        cases hb

end Others

/-! ## The whole crowd -/

section Crowd

variable {s : Settings} {networks : Nat → TaskKey → World → Network} {links : List String}
  {caller : Option Nat} {start : Nat} {key : TaskKey} {c : Crowd World Activity} {a : Activity}

theorem Undrained.turn (h : Undrained c) (steady : Steady c) {k : TaskKey}
    (can : c.CanGo (amid s networks) k a) : Undrained (c.turn (amid s networks) k a) := by
  have hacts := steady.acts can
  intro other stage hother
  rcases Crowd.getElem?_after can.here hother with ⟨-, htask⟩ | ⟨-, hother⟩ | ⟨i, -, hi⟩
  · obtain ⟨stage', rfl⟩ := hacts.of_drain.1 stage htask.symm
    have hend := can.unfinished
    rw [h k stage' can.here] at hend
    cases hend
  · exact h other stage hother
  · exact absurd rfl (hacts.of_drain.2 _ (List.mem_of_getElem? hi) stage)

theorem Undrained.call (h : Undrained c) (hne : a ≠ .drain .fresh) (asked : Requested a) :
    Undrained (c.call a) := by
  intro k stage hk
  rcases Crowd.getElem?_call hk with ⟨-, rfl⟩ | hk
  · cases asked
    exact absurd rfl hne
  · exact h k stage hk

namespace Governed

/-- A turn of whomever it is. -/
theorem turn (h : Governed s links caller start key c) (joined : Joined c) (steady : Steady c)
    (refuses : s.front.Refuses) {k : TaskKey} (can : c.CanGo (amid s networks) k a) :
    Governed s links caller start key (c.turn (amid s networks) k a) := by
  obtain ⟨stage, hstage, hgoverned⟩ := h.stage
  have hundrained := h.undrained.turn steady can
  by_cases hself : k = key
  · subst hself
    obtain rfl := Option.some.inj (hstage.symm.trans can.here)
    have hstep := @BatchCall.Governed.step (s.over (networks c.now k c.shared)) links caller start
      c.now k c.shared stage hgoverned refuses fun task deadline htask =>
        h.found task deadline (htask ▸ hstage)
    have hafter := Crowd.getElem?_after_self can.here
      (t := (amid s networks).step c.now k c.tasks.length c.shared (.batch stage))
    refine ⟨⟨_, hafter, hstep.1⟩, fun task deadline htask => ?_, hundrained⟩
    refine hstep.2 task deadline ?_
    exact Activity.batch.inj (Option.some.inj (hafter.symm.trans htask))
  · have hkeeps := Crowd.getElem?_after_of_ne (Ne.symm hself) hstage
      (t := (amid s networks).step c.now k c.tasks.length c.shared a)
    refine ⟨⟨stage, hkeeps, hgoverned⟩, fun task deadline htask => ?_, hundrained⟩
    obtain rfl := Activity.batch.inj (Option.some.inj (hkeeps.symm.trans htask))
    obtain ⟨p, hp, -⟩ := joined.joining key task deadline hstage
    intro link hlink
    have hbefore := h.found task deadline hstage
    rcases (joined.deals can).found_cases (Ne.symm hself) hp with
      hsame | ⟨deadline', check, status, rfl, going, hinsert⟩
    · refine hbefore link ?_
      rw [← hsame]
      exact hlink
    · -- The link of the check that ends is one of those submitted.
      obtain ⟨task', hparent, hmem⟩ := joined.parents k key deadline' check can.here going
      rw [hstage] at hparent
      cases hparent
      have hlink' : (((c.shared.found key).insert check.link status).get? link).isSome = true := by
        rw [← hinsert]
        exact hlink
      rw [Table.get?_insert] at hlink'
      by_cases heq : link = check.link
      · rw [heq, ← hgoverned.1]
        exact hmem
      · rw [if_neg heq] at hlink'
        exact hbefore link hlink'

/-- Time passes. -/
theorem await (h : Governed s links caller start key c) (joined : Joined c) (steady : Steady c)
    {later : Nat} (may : Crowd.Urgent (amid s networks) c later) :
    Governed s links caller start key (c.await later) := by
  obtain ⟨stage, hstage, hgoverned⟩ := h.stage
  refine ⟨⟨stage, hstage, ?_⟩, h.found, h.undrained⟩
  cases going : Activity.isFinished (.batch stage) with
  | true =>
      cases stage with
      | finished answer => cases answer <;> exact hgoverned
      | crashed task => exact hgoverned
      | _ => cases going
  | false =>
      obtain ⟨task, deadline, rfl, k, check, t, hk, hgoing, hwait, hle⟩ :=
        steady.check_of_waiting joined (.of_urgent may) h.undrained hstage going
      obtain ⟨hlinks, hdeadline, -⟩ := hgoverned
      have hunfinished : Activity.isFinished (.check key deadline check) = false := by
        cases check <;> first | rfl | cases hgoing
      obtain ⟨due, hdue, hlater⟩ := may k _ hk hunfinished
      have hlater := hlater t (Wait.change.inj (hdue.symm.trans hwait))
      refine ⟨hlinks, hdeadline, Nat.le_trans (Nat.le_trans hlater hle) ?_⟩
      rw [hdeadline]
      exact Nat.le_max_right ..

theorem call (h : Governed s links caller start key c) (asked : Meanwhile a) :
    Governed s links caller start key (c.call a) := by
  obtain ⟨stage, hstage, hgoverned⟩ := h.stage
  have hkeeps : (c.call a).tasks[key]? = some (.batch stage) :=
    Crowd.getElem?_call_of_some hstage
  refine ⟨⟨stage, hkeeps, hgoverned⟩, fun task deadline htask => ?_,
    h.undrained.call asked.2 asked.1⟩
  rw [hkeeps] at htask
  exact h.found task deadline (hstage.trans htask)

/-- The start. -/
theorem first (undrained : Undrained c) (links : List String) (caller : Option Nat) :
    Governed s links caller c.now c.tasks.length (c.call (.batch (.start links caller))) := by
  have hself : (c.call (.batch (.start links caller))).tasks[c.tasks.length]? =
      some (.batch (.start links caller)) := List.getElem?_concat_length
  refine ⟨⟨_, hself, rfl, rfl, rfl⟩, fun task deadline htask => ?_,
    undrained.call nofun (.check links caller)⟩
  rw [hself] at htask
  cases htask

theorem intime (h : Governed s links caller start key c) (going : ¬ Ended c key) :
    c.now ≤ BatchCall.due start (BatchCall.deadline? s start caller) := by
  obtain ⟨stage, hstage, hgoverned⟩ := h.stage
  exact hgoverned.intime (Bool.eq_false_iff.2 fun hend => going ⟨stage, hstage, hend⟩)

/-- If there is a deadline, the batch has its answer when it is at its end. -/
theorem answered (h : Governed s links caller start key c) {deadline : Nat}
    (hdeadline : BatchCall.deadline? s start caller = some deadline) (ended : Ended c key) :
    ∃ answer, Answered c key answer := by
  obtain ⟨stage, hstage, hend⟩ := ended
  obtain ⟨stage', hstage', hgoverned⟩ := h.stage
  obtain rfl := Activity.batch.inj (Option.some.inj (hstage'.symm.trans hstage))
  obtain ⟨answer, rfl⟩ := (hdeadline ▸ hgoverned).finished hend
  exact ⟨answer, hstage⟩

theorem covers (h : Governed s links caller start key c) {o : Outcome}
    (answered : Answered c key (.ok o)) :
    Covers links o.results ∧ (BatchCall.deadline? s start caller).isSome = true := by
  obtain ⟨stage, hstage, hgoverned⟩ := h.stage
  obtain rfl := Activity.batch.inj (Option.some.inj (hstage.symm.trans answered))
  exact hgoverned

end Governed

end Crowd

/-! ## The end comes -/

section Ends

variable {s : Settings} {networks : Nat → TaskKey → World → Network} {links : List String}
  {caller : Option Nat} {start : Nat} {key : TaskKey} {c : Crowd World Activity} {a : Activity}

theorem effort_turn_lt (steady : Steady c) (refuses : s.front.Refuses) {k : TaskKey}
    (can : c.CanGo (amid s networks) k a) :
    effort s.retry (c.turn (amid s networks) k a) < effort s.retry c := by
  have hlt := (steady.acts can).effort_lt refuses
  have htotal := Crowd.total_after (Activity.effort s.retry) can.here
    (t := (amid s networks).step c.now k c.tasks.length c.shared a)
  have hjobs : (c.turn (amid s networks) k a).shared.reports.jobs =
    ((amid s networks).step c.now k c.tasks.length c.shared a).shared.reports.jobs := rfl
  have hretry : (s.over (networks c.now k c.shared)).retry = s.retry := rfl
  rw [hretry] at hlt
  rw [effort, effort, hjobs, Crowd.turn]
  omega

/-- Unless callers come, there are only so many turns. -/
theorem turns_le_effort {pace : Crowd World Activity → Nat → Prop} (instant : s.front.Instant)
    (steady : Steady c) {m : Nat} {c' : Crowd World Activity}
    (run : Crowd.Run (amid s networks) pace Crowd.noCall c m c') :
    m + effort s.retry c' ≤ effort s.retry c := by
  have hasked : ∀ a : Activity, Crowd.noCall a → Requested a := fun _ hno => hno.elim
  induction run with
  | begin => exact Nat.le_of_eq (Nat.zero_add _)
  | turn run can ih =>
      have hsteady := Steady.of_run instant steady (run.mono (fun _ _ hp => hp) hasked)
      have hlt := effort_turn_lt hsteady instant.refuses can
      omega
  | await run le may ih => exact ih
  | call run may => exact may.elim

/-- The end of a batch can come in time, and without callers. -/
theorem Governed.comes_in_time (h : Governed s links caller start key c) (joined : Joined c)
    (steady : Steady c) (instant : s.front.Instant) (going : ¬ Ended c key) :
    ∃ m c', Crowd.Run (amid s networks) (Crowd.Urgent (amid s networks)) Crowd.noCall c m c' ∧
      Governed s links caller start key c' ∧ Ended c' key ∧
      c'.now ≤ BatchCall.due start (BatchCall.deadline? s start caller) := by
  -- By the number of turns that are left.
  induction hn : effort s.retry c using Nat.strongRecOn generalizing c with
  | ind n ih =>
    have hunfinished : ∀ {c : Crowd World Activity} {stage : BatchCall}, ¬ Ended c key →
        c.tasks[key]? = some (.batch stage) → Activity.isFinished (.batch stage) = false :=
      fun hgoing hstage => Bool.eq_false_iff.2 fun hend => hgoing ⟨_, hstage, hend⟩
    have hgo : ∀ {c : Crowd World Activity}, effort s.retry c = n →
        Governed s links caller start key c → Joined c → Steady c → ¬ Ended c key →
        (∃ k b, c.CanGo (amid s networks) k b) →
        ∃ m c', Crowd.Run (amid s networks) (Crowd.Urgent (amid s networks)) Crowd.noCall c m c' ∧
          Governed s links caller start key c' ∧ Ended c' key ∧
          c'.now ≤ BatchCall.due start (BatchCall.deadline? s start caller) := by
      rintro c hn h joined steady going ⟨k, b, can⟩
      obtain ⟨stage, hstage, hgoverned⟩ := h.stage
      have hrun : Crowd.Run (amid s networks) (Crowd.Urgent (amid s networks)) Crowd.noCall c 1
          (c.turn (amid s networks) k b) := .turn .begin can
      have hturn := h.turn joined steady instant.refuses can
      by_cases hended : Ended (c.turn (amid s networks) k b) key
      · exact ⟨_, _, hrun, hturn, hended, hgoverned.intime (hunfinished going hstage)⟩
      · have hlt := effort_turn_lt steady instant.refuses can
        obtain ⟨m, c', hrun', hends⟩ := ih _ (hn ▸ hlt) hturn
          (joined.after (joined.deals can) can.here)
          (steady.after (steady.acts can) instant can.here) hended rfl
        exact ⟨_, c', hrun.trans hrun', hends⟩
    by_cases hcan : ∃ k b, c.CanGo (amid s networks) k b
    · exact hgo hn h joined steady going hcan
    · -- Then time passes until somebody can go on.
      have hwaiting : Waiting c := .of_stuck fun k b can => hcan ⟨k, b, can⟩
      obtain ⟨stage, hstage, -⟩ := h.stage
      obtain ⟨task, deadline, rfl, k, check, t, hk, hgoing, hwait, -⟩ :=
        steady.check_of_waiting joined hwaiting h.undrained hstage (hunfinished going hstage)
      have hcheck : Activity.isFinished (.check key deadline check) = false := by
        cases check <;> first | rfl | cases hgoing
      obtain ⟨later, hle, hurgent, hcan'⟩ : ∃ later, c.now ≤ later ∧
          Crowd.Urgent (amid s networks) c later ∧
          ∃ k b, (c.await later).CanGo (amid s networks) k b := hwaiting.next hk hcheck hwait
      have hrun : Crowd.Run (amid s networks) (Crowd.Urgent (amid s networks)) Crowd.noCall c 0
          (c.await later) := .await .begin hle hurgent
      obtain ⟨m, c', hrun', hends⟩ := hgo (c := c.await later) hn
        (h.await joined steady hurgent) ⟨joined.kinds, joined.joining, joined.parents⟩
        (steady.await hle) going hcan'
      exact ⟨_, c', hrun.trans hrun', hends⟩

end Ends

/-! ## The checks -/

/-- A turn of a check of the batch: its deadline is that of the batch, it is in time, and without a
    permit it touches nothing that checks share. -/
theorem Governed.check {s : Settings} {networks : Nat → TaskKey → World → Network}
    {links : List String} {caller : Option Nat} {start permits : Nat} {key k : TaskKey}
    {c : Crowd World Activity} (h : Governed s links caller start key c) (joined : Joined c)
    (staffed : Staffed permits c) {deadline : Nat} {check : LinkCheck}
    (can : c.CanGo (amid s networks) k (.check key deadline check)) :
    BatchCall.deadline? s start caller = some deadline ∧ c.now ≤ max start deadline ∧
    (c.shared.permits.holds k = false →
      (c.deed (amid s networks) k (.check key deadline check)).turn.shared.scene = c.shared.scene ∧
      ∀ link status, (c.deed (amid s networks) k (.check key deadline check)).turn.task =
        .check key deadline (.finished link status) → status = .notAvailable ∧ deadline ≤ c.now) := by
  have going : check.isFinished = false := by
    have hgoing := can.unfinished
    cases check <;> first | rfl | cases hgoing
  obtain ⟨task, hparent, -⟩ := joined.parents k key deadline check can.here going
  obtain ⟨stage, hstage, hgoverned⟩ := h.stage
  rw [hparent] at hstage
  cases hstage
  obtain ⟨-, hdeadline, hintime⟩ := hgoverned
  rw [hdeadline] at hintime
  refine ⟨hdeadline, hintime, fun hwithout => ?_⟩
  have hprobing : Activity.isProbing (.check key deadline check) = false := by
    refine Bool.eq_false_iff.2 fun hprobing => ?_
    have hholds := staffed.holding k (by rw [can.here, Option.any_some, hprobing])
    rw [hwithout] at hholds
    cases hholds
  have hdeals := joined.deals can
  simp only [Crowd.deed]
  generalize (amid s networks).step c.now k c.tasks.length c.shared
    (.check key deadline check) = t at hdeals ⊢
  cases hdeals with
  | queues => exact ⟨rfl, by rintro _ _ ⟨⟩⟩
  | starts holds =>
      rw [hwithout] at holds
      cases holds
  | givesUp without late =>
      refine ⟨LinkCheck.scene_report .., fun link' status htask => ?_⟩
      cases htask
      exact ⟨rfl, late⟩
  | probes => cases hprobing
  | ends => cases hprobing
  | aside haway => cases haway.before

/-! ## What follows -/

section Trail

variable {s : Settings} {networks : Nat → TaskKey → World → Network} {clock : ClockKind}
  {store : Store} {disk : Disk} {workers reportWorkers n : Nat} {links : List String}
  {caller : Option Nat} {c₀ c : Crowd World Activity} {deeds : List (Deed World Activity)}

/-- A batch and what is done meanwhile continue the run before. -/
theorem run_of_trail {first : Crowd World Activity}
    (before : Crowd.Run (amid s networks) Crowd.anyTime Requested first n c₀)
    (trail : Crowd.Trail (amid s networks) (Crowd.Urgent (amid s networks)) Meanwhile
      (c₀.call (.batch (.start links caller))) deeds c) :
    Crowd.Run (amid s networks) Crowd.anyTime Requested first (n + deeds.length) c :=
  (before.call (.check links caller)).trans
    (trail.run.mono (fun _ _ _ => trivial) fun _ asked => asked.1)

theorem Governed.of_trail (instant : s.front.Instant)
    (before : Crowd.Run (amid s networks) Crowd.anyTime Requested
      (World.initial clock (.ofStore store disk) workers reportWorkers).crowd n c₀)
    (undrained : Undrained c₀)
    (trail : Crowd.Trail (amid s networks) (Crowd.Urgent (amid s networks)) Meanwhile
      (c₀.call (.batch (.start links caller))) deeds c) :
    Governed s links caller c₀.now c₀.tasks.length c := by
  have hsteady : ∀ {m : Nat} {c : Crowd World Activity}, Crowd.Run (amid s networks) Crowd.anyTime
      Requested (World.initial clock (.ofStore store disk) workers reportWorkers).crowd m c →
      Steady c := fun run =>
    Steady.of_run instant (.first clock store disk workers reportWorkers) run
  induction trail with
  | begin => exact .first undrained links caller
  | turn trail can ih =>
      have run := run_of_trail before trail
      exact ih.turn (.of_run run) (hsteady run) instant.refuses can
  | await trail le may ih =>
      have run := run_of_trail before trail
      exact ih.await (.of_run run) (hsteady run) may
  | call trail may ih => exact ih.call may

/-- The turns of the checks of a batch. -/
theorem checks_of_trail (instant : s.front.Instant)
    (before : Crowd.Run (amid s networks) Crowd.anyTime Requested
      (World.initial clock (.ofStore store disk) workers reportWorkers).crowd n c₀)
    (undrained : Undrained c₀)
    (trail : Crowd.Trail (amid s networks) (Crowd.Urgent (amid s networks)) Meanwhile
      (c₀.call (.batch (.start links caller))) deeds c) :
    ∀ d ∈ deeds, ∀ deadline check, d.task = .check c₀.tasks.length deadline check →
      BatchCall.deadline? s c₀.now caller = some deadline ∧ d.time ≤ max c₀.now deadline ∧
      (d.found.permits.holds d.key = false → d.turn.shared.scene = d.found.scene ∧
        ∀ link status, d.turn.task = .check c₀.tasks.length deadline (.finished link status) →
          status = .notAvailable ∧ deadline ≤ d.time) := by
  induction trail with
  | begin => exact List.forall_mem_nil _
  | turn trail can ih =>
      intro d hd deadline check htask
      rcases List.mem_append.1 hd with hd | hd
      · exact ih d hd deadline check htask
      · obtain rfl := List.mem_singleton.1 hd
        obtain rfl := htask
        have run := run_of_trail before trail
        exact (Governed.of_trail instant before undrained trail).check (.of_run run)
          (.of_run run) can
  | await trail le may ih => exact ih
  | call trail may ih => exact ih

/-- A batch that is called for when nobody waits for all jobs, with a store whose calls take no
    time, whatever the clock and the networks do and whoever else comes. Nobody has more than so
    many turns, no check makes a request at its deadline or later, and if the batch becomes a task
    and gets an answer, this is about just the links that were submitted.

    If the time that its checks may take ends before time does, the batch has a deadline. As long as
    it has no answer, the later of its start and of its deadline is not over; its answer comes by
    then without anybody's help. All its checks have its deadline. A check without a permit touches
    neither the network nor the circuits, and ends without success at the deadline at the earliest.
    Unless the deadline was over at the start, what a check does to the network and to the circuits
    it does by the deadline, with its permit.

    Otherwise the batch has no deadline. It comes to its end at once, none of its links is checked,
    and its caller gets no statuses: no task was created, or the batch crashed. -/
theorem answered_in_time (instant : s.front.Instant)
    (before : Crowd.Run (amid s networks) Crowd.anyTime Requested
      (World.initial clock (.ofStore store disk) workers reportWorkers).crowd n c₀)
    (undrained : Undrained c₀)
    (trail : Crowd.Trail (amid s networks) (Crowd.Urgent (amid s networks)) Meanwhile
      (c₀.call (.batch (.start links caller))) deeds c) :
    (∀ deadline, BatchCall.deadline? s c₀.now caller = some deadline →
      ((∀ answer, ¬ Answered c c₀.tasks.length answer) → c.now ≤ max c₀.now deadline ∧
        ∃ m c' answer, Crowd.Run (amid s networks) (Crowd.Urgent (amid s networks)) Crowd.noCall
          c m c' ∧ Answered c' c₀.tasks.length answer ∧ c'.now ≤ max c₀.now deadline) ∧
      (∀ d ∈ deeds, ∀ deadline' check, d.task = .check c₀.tasks.length deadline' check →
        deadline' = deadline ∧
        (d.found.permits.holds d.key = false → d.turn.shared.scene = d.found.scene ∧
          ∀ link status, d.turn.task = .check c₀.tasks.length deadline (.finished link status) →
            status = .notAvailable ∧ deadline ≤ d.time)) ∧
      (c₀.now ≤ deadline → ∀ d ∈ deeds, ∀ deadline' check,
        d.task = .check c₀.tasks.length deadline' check → d.turn.shared.scene ≠ d.found.scene →
        d.found.permits.holds d.key = true ∧ d.time ≤ deadline)) ∧
    (BatchCall.deadline? s c₀.now caller = none →
      (¬ Ended c c₀.tasks.length → c.now ≤ c₀.now ∧
        ∃ m c', Crowd.Run (amid s networks) (Crowd.Urgent (amid s networks)) Crowd.noCall
          c m c' ∧ Ended c' c₀.tasks.length ∧ c'.now ≤ c₀.now) ∧
      (∀ d ∈ deeds, ∀ deadline check, d.task ≠ .check c₀.tasks.length deadline check) ∧
      ∀ o, ¬ Answered c c₀.tasks.length (.ok o)) ∧
    (∀ m c', Crowd.Run (amid s networks) Crowd.anyTime Crowd.noCall c m c' →
      m ≤ effort s.retry c) ∧
    (∀ d ∈ deeds, d.calls ≠ [] → ∃ parent deadline check,
      d.task = .check parent deadline check ∧ d.time < deadline) ∧
    ∀ o, Answered c c₀.tasks.length (.ok o) → ∀ link,
      (o.results.get? link).isSome = true ↔ link ∈ links := by
  have run := run_of_trail before trail
  have hsteady : Steady c :=
    Steady.of_run instant (.first clock store disk workers reportWorkers) run
  have hgoverned := Governed.of_trail instant before undrained trail
  have hchecks := checks_of_trail instant before undrained trail
  refine ⟨fun deadline hdeadline => ⟨fun going => ?_, fun d hd deadline' check htask => ?_,
      fun hstart d hd deadline' check htask htouched => ?_⟩,
    fun hnone => ⟨fun going => ?_, fun d hd deadline check htask => ?_, fun o answered => ?_⟩,
    fun m c' run' => ?_, fun d hd hcalls => ?_, fun o answered => (hgoverned.covers answered).1⟩
  · have hgoing : ¬ Ended c c₀.tasks.length := fun hend =>
      Exists.elim (hgoverned.answered hdeadline hend) going
    obtain ⟨m, c', run', hgoverned', hend, hle⟩ :=
      hgoverned.comes_in_time (.of_run run) hsteady instant hgoing
    obtain ⟨answer, hanswer⟩ := hgoverned'.answered hdeadline hend
    have hnow := hgoverned.intime hgoing
    rw [hdeadline] at hnow hle
    exact ⟨hnow, m, c', answer, run', hanswer, hle⟩
  · obtain ⟨hsame, -, hwithout⟩ := hchecks d hd deadline' check htask
    obtain rfl := Option.some.inj (hsame.symm.trans hdeadline)
    exact ⟨rfl, hwithout⟩
  · obtain ⟨hsame, hle, hwithout⟩ := hchecks d hd deadline' check htask
    obtain rfl := Option.some.inj (hsame.symm.trans hdeadline)
    rw [Nat.max_eq_right hstart] at hle
    refine ⟨Bool.eq_true_of_not_eq_false fun hholds => ?_, hle⟩
    exact htouched (hwithout hholds).1
  · obtain ⟨m, c', run', -, hend, hle⟩ :=
      hgoverned.comes_in_time (.of_run run) hsteady instant going
    have hnow := hgoverned.intime going
    rw [hnone, BatchCall.due, Option.getD_none, Nat.max_self] at hnow hle
    exact ⟨hnow, m, c', run', hend, hle⟩
  · cases hnone.symm.trans (hchecks d hd deadline check htask).1
  · have hsome := (hgoverned.covers answered).2
    rw [hnone] at hsome
    cases hsome
  · exact Nat.le_trans (Nat.le_add_right ..) (turns_le_effort instant hsteady run')
  · obtain ⟨call, hcall⟩ := List.exists_mem_of_ne_nil _ hcalls
    obtain ⟨deeds', trail'⟩ := before.trail
    have hwhole := (trail'.call (.check links caller)).trans
      (trail.mono (fun _ _ _ => trivial) fun _ asked => asked.1)
    obtain ⟨parent, deadline, link, stage, url, htask, -, hlt, -⟩ :=
      calls_of_trail hwhole d (List.mem_append_right _ hd) call hcall
    exact ⟨parent, deadline, _, htask, hlt⟩

end Trail

/-! ## A network that never answers -/

/-- A network on which nothing ever comes. -/
def silent : Network where
  lookup _ := ⟨.ok [], none⟩
  reply _ _ := ⟨.ok 200, none⟩

/-- It stays so. -/
def silentNetworks (_ : Nat) (_ : TaskKey) (_ : World) : Network := silent

/-- Two copies of a link with one permit between them: the first check gets it. -/
theorem silent_looks : ((sampleCrowd.call (.batch (.start [".", "."] none))).play?
    (amid sampleSettings silentNetworks) [0, 0, 1, 1, 1, 1, 1, 2, 3, 2]).isSome := by
  decide +kernel

/-- It is about to look at the link. -/
def silentCopies : Crowd World Activity := Option.get _ silent_looks

/-- It waits for the answer to its lookup. -/
def silentLookup : Crowd World Activity :=
  ⟨0, { silentCopies.shared with scene :=
      { Probe.Course.sampleScene with traffic := Traffic.none.addLookup "." } },
    silentCopies.tasks.set 2
      (.check 1 5000 (.probing "." (.lookingUp sampleTarget (.ok []) none)))⟩

theorem silent_lookup : ∃ n, Crowd.Run (amid sampleSettings silentNetworks)
    (Crowd.Urgent (amid sampleSettings silentNetworks)) Meanwhile
    (sampleCrowd.call (.batch (.start [".", "."] none))) n silentLookup := by
  have hplay : (sampleCrowd.call (.batch (.start [".", "."] none))).play?
      (amid sampleSettings silentNetworks) [0, 0, 1, 1, 1, 1, 1, 2, 3, 2] = some silentCopies :=
    (Option.some_get silent_looks).symm
  obtain ⟨n, run⟩ := Crowd.Run.begin.play? hplay
  have hbefore : silentCopies.now = 0 ∧ silentCopies.shared.scene.traffic = .none ∧
      silentCopies.shared.scene.circuits = .empty ∧
      silentCopies.shared.scene.clock = .ofKind .manual ∧
      silentCopies.tasks[2]?.bind Activity.looking? = some (1, 5000, ".") := by
    decide +kernel
  obtain ⟨hnow, htraffic, hcircuits, hclock, hfirst⟩ := hbefore
  have hscene := eq_sampleScene htraffic hcircuits hclock
  obtain ⟨a, ha, hlooks⟩ := Option.bind_eq_some_iff.1 hfirst
  rw [Activity.eq_of_looking? hlooks] at ha
  have hturn : silentCopies.turn (amid sampleSettings silentNetworks) 2
      (.check 1 5000 (.probing "." (.fresh "."))) = silentLookup := by
    rw [turn_root rfl hscene, hnow]
    rfl
  exact ⟨_, hturn ▸ run.turn (canGo_probing ha rfl)⟩

theorem instant_onceRefusing : onceRefusing.Instant where
  refuses := refuses_onceRefusing
  atOnce := by
    intro calls call d h
    simp only [onceRefusing] at h
    split at h
    · cases h
      rfl
    · cases h

/-- When the deadline comes, the second check gives up without a permit, and the first one in the
    middle of its lookup, the only one; then the batch has its answer, with the link in it. -/
theorem answered_in_time_silent_network : ∃ deeds c o,
    Crowd.Trail (amid sampleSettings silentNetworks)
      (Crowd.Urgent (amid sampleSettings silentNetworks)) Meanwhile
      (sampleCrowd.call (.batch (.start [".", "."] none))) deeds c ∧
    Answered c 1 (.ok o) ∧ BatchCall.deadline? sampleSettings 0 none = some c.now ∧
    c.shared.scene.traffic.lookups = ["."] ∧
    (∀ link, (o.results.get? link).isSome = true ↔ link ∈ [".", "."]) := by
  have hurgent : silentLookup.isUrgent (amid sampleSettings silentNetworks) 5000 = true := by
    decide +kernel
  have hplay : ((silentLookup.await 5000).play? (amid sampleSettings silentNetworks)
      [3, 2, 2, 1, 1, 1, 1, 1]).any (fun c => decide (c.shared.scene.traffic.lookups = ["."]) &&
        (c.tasks[1]?.bind Activity.outcome?).isSome) = true := by
    decide +kernel
  obtain ⟨n, run⟩ := silent_lookup
  obtain ⟨c, hc, hends⟩ := (Option.any_eq_true _ _).1 hplay
  obtain ⟨hlookups, hanswer⟩ := Bool.and_eq_true_iff.1 hends
  have hstart : silentLookup.now ≤ 5000 := Nat.zero_le 5000
  obtain ⟨m, run⟩ := (run.await hstart (Crowd.urgent_of_isUrgent hurgent)).play? hc
  obtain ⟨deeds, trail⟩ := run.trail
  obtain ⟨o, ho⟩ := Option.isSome_iff_exists.1 hanswer
  obtain ⟨b, hb, ho⟩ := Option.bind_eq_some_iff.1 ho
  have answered : Answered c 1 (.ok o) := by rw [Answered, hb, Activity.eq_of_outcome? ho]
  have undrained : Undrained sampleCrowd := by
    intro key stage hkey
    cases World.eq_idle_of_crowd hkey
  have hends := answered_in_time instant_onceRefusing .begin undrained trail
  have hnow : c.now = 5000 := Crowd.play?_now hc
  exact ⟨deeds, c, o, trail, answered, hnow ▸ rfl, of_decide_eq_true hlookups,
    hends.2.2.2.2 o answered⟩

/-- A batch whose deadline is over before it begins: its check has got a permit all the same. -/
theorem late_looks : (((sampleCrowd.await 40000).call (.batch (.start ["."] (some 39000)))).play?
    (amid sampleSettings silentNetworks) [0, 0, 1, 1, 1, 1, 1, 2, 2]).isSome := by
  decide +kernel

/-- It is about to look at the link. -/
def lateLooking : Crowd World Activity := Option.get _ late_looks

/-- Then it looks the link up, after the deadline. -/
theorem looked_up_after_deadline : ∃ deeds c,
    Crowd.Trail (amid sampleSettings silentNetworks)
      (Crowd.Urgent (amid sampleSettings silentNetworks)) Meanwhile
      ((sampleCrowd.await 40000).call (.batch (.start ["."] (some 39000)))) deeds c ∧
    BatchCall.deadline? sampleSettings 40000 (some 39000) = some 39000 ∧
    c.shared.scene.traffic.lookups = ["."] := by
  have hplay : ((sampleCrowd.await 40000).call (.batch (.start ["."] (some 39000)))).play?
      (amid sampleSettings silentNetworks) [0, 0, 1, 1, 1, 1, 1, 2, 2] = some lateLooking :=
    (Option.some_get late_looks).symm
  obtain ⟨n, run⟩ := Crowd.Run.begin.play? hplay
  have hbefore : lateLooking.shared.scene.traffic.lookups = [] ∧
      lateLooking.tasks[2]?.bind Activity.looking? = some (1, 39000, ".") := by
    decide +kernel
  obtain ⟨hlookups, hlooks⟩ := hbefore
  obtain ⟨a, ha, hlooks⟩ := Option.bind_eq_some_iff.1 hlooks
  rw [Activity.eq_of_looking? hlooks] at ha
  obtain ⟨deeds, trail⟩ := (run.turn (canGo_probing ha rfl)).trail
  refine ⟨deeds, _, trail, rfl, ?_⟩
  rw [turn_root rfl rfl]
  show "." :: lateLooking.shared.scene.traffic.lookups = _
  rw [hlookups]

end Reachability.Engine
