import Reachability.Proofs.Engine.Acts
import Reachability.Proofs.Engine.Merging
import Reachability.Proofs.Probe.Verdict

set_option autoImplicit false

/-! # Checks do not disturb each other

The links of a batch have hosts of their own. Then no check changes what another one comes to: each
is foretold by its verdict, whoever has the turns and whenever (`Foreseen`), as long as it ends
before the deadline. So the statuses of a batch, and the failures of all hosts, are the same for any
number of permits and in any order of turns, and the same as if the links were looked at one after
the other (`same_in_any_order`). -/

namespace Reachability.Engine

open Probe (Alone Apart Below InTurn Scene Spares SparesLink outcomes target? verdict)
open StoreService (Visit)

/-! ## What is foreseen -/

/-- The link that a task checks. -/
def Activity.checked? : Activity → Option String
  | check _ _ stage => some stage.link
  | _ => none

/-- The links that are checked, or have been. -/
def checkedIn (c : Crowd World Activity) : List String := c.tasks.filterMap Activity.checked?

/-- How far the probe of a check has come. -/
def LinkCheck.probe : LinkCheck → Probe.Stage
  | .fresh link => .fresh link
  | .inLine link => .fresh link
  | .probing _ stage => stage
  | .finished _ status => .finished status

/-- A batch that has begun to check these links, none or all, comes to their verdicts. -/
def BatchCall.Follows (network : Network) (first : Scene) (links begun : List String) :
    BatchCall → Prop
  | .creating _ visit => visit.Creates links ∧ begun = []
  | .joining task _ => task.links = links ∧ begun = links
  | .updating _ results _ => results = outcomes network first links ∧ begun = links
  | .submitting _ results => results = outcomes network first links ∧ begun = links
  | .finished (.ok o) => o.results = outcomes network first links ∧ begun = links
  | .finished (.error _) => begun = []
  | .crashed _ => begun = []

/-- The only batch of a crowd, and each of its checks, come to the verdicts; a check does so only if
    it ends before its deadline. -/
structure Foreseen (s : Settings) (links : List String) (first : Scene) (key : TaskKey)
    (c : Crowd World Activity) : Prop where
  batch : ∃ stage, c.tasks[key]? = some (.batch stage) ∧
    stage.Follows s.probe.network first links (checkedIn c)
  only : ∀ (k : TaskKey) stage, c.tasks[k]? = some (.batch stage) → k = key
  check : ∀ (k : TaskKey) parent deadline stage,
    c.tasks[k]? = some (.check parent deadline stage) →
    parent = key ∧ stage.probe.IsOf stage.link ∧
      (stage.isFinished = true ∨ c.now < deadline →
        stage.probe.Heads s.probe stage.link (verdict s.probe.network first stage.link)
          c.shared.scene)
  spares : ∀ host, (∀ link ∈ checkedIn c, ∀ target, target? link = some target →
    target.host ≠ host) → Spares host first c.shared.scene

/-! ## Turns -/

section Deals

variable {s : Settings} {now : Nat} {key : TaskKey} {w : World} {a : Activity}
  {t : Turn World Activity}

/-- Only the host of the link that the task checks is not left alone. -/
theorem Deals.spares (h : Deals s now key w a t) {host : String}
    (own : ∀ parent deadline stage, a = .check parent deadline stage →
      stage.probe.IsOf stage.link ∧
        ∀ target, target? stage.link = some target → target.host ≠ host) :
    Spares host w.scene t.shared.scene := by
  cases h with
  | givesUp =>
      dsimp only
      rw [LinkCheck.scene_report]
      exact .refl host w.scene
  | probes =>
      obtain ⟨hisOf, hne⟩ := own _ _ _ rfl
      exact Probe.spares_step hisOf hne
  | ends =>
      dsimp only
      rw [LinkCheck.scene_report]
      exact .refl host w.scene
  | aside haside =>
      refine ⟨by rw [haside.circuits], by rw [haside.traffic]⟩
  | _ => exact .refl host w.scene

/-- Who checks a link goes on with that, and nobody else begins to, but a batch that starts its
    checks. -/
theorem Deals.checked (h : Deals s now key w a t) (hnot : ∀ stage, a ≠ .batch stage) :
    t.task.checked? = a.checked? ∧ t.started.filterMap Activity.checked? = [] := by
  cases h with
  | launches => exact absurd rfl (hnot _)
  | gathers => exact absurd rfl (hnot _)
  | aside haside =>
      have hnone : ∀ {b : Activity}, b.isAside = true → b.checked? = none := by
        intro b hb
        cases b with
        | check parent deadline stage => cases hb
        | _ => rfl
      refine ⟨by rw [hnone haside.before, hnone haside.after], ?_⟩
      refine List.filterMap_eq_nil_iff.2 fun b hb => ?_
      obtain ⟨job, stage, rfl⟩ := haside.started b hb
      rfl
  | _ => exact ⟨rfl, rfl⟩

/-- A check goes on with its link. -/
theorem Deals.of_checking {parent : TaskKey} {deadline : Nat} {stage : LinkCheck}
    (h : Deals s now key w (.check parent deadline stage) t)
    (isOf : stage.probe.IsOf stage.link) :
    ∃ after, t.task = .check parent deadline after ∧ after.link = stage.link ∧
      after.probe.IsOf stage.link := by
  cases h with
  | queues => exact ⟨_, rfl, rfl, isOf⟩
  | starts => exact ⟨_, rfl, rfl, rfl⟩
  | givesUp => exact ⟨_, rfl, rfl, trivial⟩
  | probes => exact ⟨_, rfl, rfl, isOf.step⟩
  | ends => exact ⟨_, rfl, rfl, trivial⟩
  | aside haside => cases haside.before

/-- Before the deadline, what a check comes to stays the same. -/
theorem Deals.heads {parent : TaskKey} {deadline : Nat} {stage after : LinkCheck}
    {v : LinkStatus × Nat} (h : Deals s now key w (.check parent deadline stage) t)
    (isOf : stage.probe.IsOf stage.link) (heads : stage.probe.Heads s.probe stage.link v w.scene)
    (ready : ∀ probe, stage = .probing stage.link probe → probe.wait now deadline = .nothing)
    (intime : now < deadline) (htask : t.task = .check parent deadline after) :
    after.probe.Heads s.probe stage.link v t.shared.scene := by
  cases h with
  | queues =>
      cases htask
      exact heads
  | starts =>
      cases htask
      exact heads
  | givesUp without late => exact absurd intime (Nat.not_lt.2 late)
  | probes going =>
      cases htask
      exact heads.step isOf going (ready _ rfl) intime
  | ends =>
      cases htask
      dsimp only
      rw [LinkCheck.scene_report]
      exact heads
  | aside haside => cases haside.before

end Deals

section Turns

variable {s : Settings} {links : List String} {first : Scene} {key : TaskKey}
  {c : Crowd World Activity} {k k' : TaskKey} {a : Activity} {deeds : List (Deed World Activity)}

theorem checkedIn_after {t : Turn World Activity} (hkey : c.tasks[k]? = some a)
    (self : t.task.checked? = a.checked?) :
    checkedIn (c.after k t) = checkedIn c ++ t.started.filterMap Activity.checked? :=
  Crowd.filterMap_after Activity.checked? hkey self

theorem mem_checkedIn {parent : TaskKey} {deadline : Nat} {stage : LinkCheck}
    (hk : c.tasks[k]? = some (.check parent deadline stage)) : stage.link ∈ checkedIn c :=
  List.mem_filterMap.2 ⟨_, List.mem_of_getElem? hk, rfl⟩

theorem exists_check {link : String} (h : link ∈ checkedIn c) : ∃ (k : TaskKey) (parent : TaskKey)
    (deadline : Nat) (stage : LinkCheck),
      c.tasks[k]? = some (.check parent deadline stage) ∧ stage.link = link := by
  obtain ⟨a, ha, hchecked⟩ := List.mem_filterMap.1 h
  obtain ⟨k, hk⟩ := List.getElem?_of_mem ha
  cases a with
  | check parent deadline stage =>
      exact ⟨k, parent, deadline, stage, hk, Option.some.inj hchecked⟩
  | _ => cases hchecked

/-- Two tasks do not check links of one host. -/
theorem apart_of_ne (apart : (checkedIn c).Pairwise Apart) (hne : k ≠ k') {link link' : String}
    {b : Activity} (hk : c.tasks[k]? = some a) (hk' : c.tasks[k']? = some b)
    (ha : a.checked? = some link) (hb : b.checked? = some link') : Apart link link' := by
  rw [checkedIn, List.pairwise_filterMap, List.pairwise_iff_getElem] at apart
  obtain ⟨hlt, rfl⟩ := List.getElem?_eq_some_iff.1 hk
  obtain ⟨hlt', rfl⟩ := List.getElem?_eq_some_iff.1 hk'
  rcases Nat.lt_or_gt_of_ne hne with h | h
  · exact apart k k' hlt hlt' h link ha link' hb
  · exact (apart k' k hlt' hlt h link' hb link ha).symm

/-- What has been begun are no links or all. -/
theorem Foreseen.begun (h : Foreseen s links first key c) :
    checkedIn c = [] ∨ checkedIn c = links := by
  obtain ⟨stage, -, hfollows⟩ := h.batch
  cases stage with
  | creating caller visit => exact .inl hfollows.2
  | joining task deadline => exact .inr hfollows.2
  | updating task results visit => exact .inr hfollows.2
  | submitting task results => exact .inr hfollows.2
  | finished answer =>
      cases answer with
      | ok o => exact .inr hfollows.2
      | error e => exact .inl hfollows
  | crashed task => exact .inl hfollows

theorem Foreseen.pairwise (h : Foreseen s links first key c) (apart : links.Pairwise Apart) :
    (checkedIn c).Pairwise Apart := by
  rcases h.begun with hbegun | hbegun
  · rw [hbegun]
    exact .nil
  · rwa [hbegun]

/-- Who has no turn comes to the same as before. -/
theorem Foreseen.check_of_ne (h : Foreseen s links first key c) (apart : links.Pairwise Apart)
    {t : Turn World Activity} (deals : Deals s c.now k c.shared a t) (hkey : c.tasks[k]? = some a)
    (hne : k' ≠ k) {parent : TaskKey} {deadline : Nat} {stage : LinkCheck}
    (hk' : c.tasks[k']? = some (.check parent deadline stage)) :
    parent = key ∧ stage.probe.IsOf stage.link ∧
      (stage.isFinished = true ∨ c.now < deadline →
        stage.probe.Heads s.probe stage.link (verdict s.probe.network first stage.link)
          t.shared.scene) := by
  obtain ⟨hparent, hisOf, hheads⟩ := h.check k' parent deadline stage hk'
  refine ⟨hparent, hisOf, fun intime => (hheads intime).congr hisOf fun target htarget => ?_⟩
  refine deals.spares fun parent' deadline' stage' ha => ?_
  subst ha
  refine ⟨(h.check k _ _ _ hkey).2.1, fun target' htarget' => ?_⟩
  exact apart_of_ne (h.pairwise apart) hne.symm hkey hk' rfl rfl target' target htarget' htarget

theorem Foreseen.spares_after (h : Foreseen s links first key c) {t : Turn World Activity}
    (deals : Deals s c.now k c.shared a t) (hkey : c.tasks[k]? = some a)
    (self : t.task.checked? = a.checked?) (host : String)
    (hne : ∀ link ∈ checkedIn (c.after k t), ∀ target, target? link = some target →
      target.host ≠ host) : Spares host first t.shared.scene := by
  have hold : ∀ link ∈ checkedIn c, ∀ target, target? link = some target → target.host ≠ host := by
    intro link hlink
    refine hne link ?_
    rw [checkedIn_after hkey self]
    exact List.mem_append_left _ hlink
  refine (h.spares host hold).trans (deals.spares fun parent deadline stage ha => ?_)
  subst ha
  exact ⟨(h.check k _ _ _ hkey).2.1, hold stage.link (mem_checkedIn hkey)⟩

/-- A task that is no batch does not become one. -/
theorem Activity.of_step_batch {now : Nat} {w : World} {stage : BatchCall}
    (h : (a.step s now k w).task = .batch stage) : ∃ before, a = .batch before := by
  cases a with
  | batch before => exact ⟨before, rfl⟩
  | _ => cases h

/-- A check that probes has the turn when its probe can go on. -/
theorem wait_of_canGo {parent : TaskKey} {deadline : Nat} {link : String} {probe : Probe.Stage}
    (can : c.CanGo (process s) k (.check parent deadline (.probing link probe))) :
    probe.wait c.now deadline = .nothing := by
  have hready : probe.wait c.now deadline = .nothing ∨ probe.wait c.now deadline = .disk :=
    can.ready
  refine hready.resolve_right fun hdisk => ?_
  rcases probe.wait_cases c.now deadline with hnothing | ⟨finish, hwait⟩
  · rw [hnothing] at hdisk
    cases hdisk
  · rw [hwait] at hdisk
    unfold Probe.waitUntil at hdisk
    split at hdisk <;> cases hdisk

/-- A check that has the turn comes to the same as before. -/
theorem Foreseen.check_turn (h : Foreseen s links first key c) {parent : TaskKey} {deadline : Nat}
    {before after : LinkCheck} (can : c.CanGo (process s) k (.check parent deadline before))
    {t : Turn World Activity} (deals : Deals s c.now k c.shared (.check parent deadline before) t)
    (htask : t.task = .check parent deadline after)
    (intime : after.isFinished = true → c.now < deadline) :
    parent = key ∧ after.probe.IsOf after.link ∧
      (after.isFinished = true ∨ c.now < deadline →
        after.probe.Heads s.probe after.link (verdict s.probe.network first after.link)
          t.shared.scene) := by
  obtain ⟨hparent, hisOf, hheads⟩ := h.check k parent deadline before can.here
  obtain ⟨stage, hstage, hlink, hisOf'⟩ := deals.of_checking hisOf
  obtain ⟨-, -, rfl⟩ := Activity.check.inj (hstage.symm.trans htask)
  rw [hlink]
  refine ⟨hparent, hisOf', fun hlate => ?_⟩
  have hnow : c.now < deadline := hlate.elim intime id
  refine deals.heads hisOf (hheads (.inr hnow)) (fun probe hprobe => ?_) hnow htask
  rw [hprobe] at can
  exact wait_of_canGo can

/-- A turn of a task that is no batch. -/
theorem Foreseen.turn_other (h : Foreseen s links first key c) (apart : links.Pairwise Apart)
    (deals : Deals s c.now k c.shared a (a.step s c.now k c.shared))
    (can : c.CanGo (process s) k a) (hnot : ∀ stage, a ≠ .batch stage)
    (intime : ∀ parent deadline link status, (a.step s c.now k c.shared).task
      = .check parent deadline (.finished link status) → c.now < deadline) :
    Foreseen s links first key (c.after k (a.step s c.now k c.shared)) := by
  have hkey := can.here
  obtain ⟨hself, hnone⟩ := deals.checked hnot
  have hbegun : checkedIn (c.after k (a.step s c.now k c.shared)) = checkedIn c := by
    rw [checkedIn_after hkey hself, hnone, List.append_nil]
  have hstarted : ∀ b ∈ (a.step s c.now k c.shared).started, ∃ job stage, b = .retry job stage := by
    intro b hb
    rcases deals.started_cases hb with ⟨link, task, deadline, -, htask, -⟩ | hretry
    · obtain ⟨before, ha⟩ := Activity.of_step_batch htask
      exact absurd ha (hnot before)
    · exact hretry
  refine ⟨?_, fun k' stage hk' => ?_, fun k' parent deadline stage hk' => ?_,
    h.spares_after deals hkey hself⟩
  · obtain ⟨stage, hstage, hfollows⟩ := h.batch
    have hne : key ≠ k := by
      rintro rfl
      exact hnot stage (Option.some.inj (hkey.symm.trans hstage))
    exact ⟨stage, Crowd.getElem?_after_of_ne hne hstage, hbegun ▸ hfollows⟩
  · rcases Crowd.getElem?_after hkey hk' with ⟨-, htask⟩ | ⟨-, hold⟩ | ⟨i, -, hi⟩
    · obtain ⟨before, ha⟩ := Activity.of_step_batch htask.symm
      exact absurd ha (hnot before)
    · exact h.only k' stage hold
    · obtain ⟨job, stage', hretry⟩ := hstarted _ (List.mem_of_getElem? hi)
      cases hretry
  · rcases Crowd.getElem?_after hkey hk' with ⟨-, htask⟩ | ⟨hne, hold⟩ | ⟨i, -, hi⟩
    · have hcheck := htask.symm
      cases a with
      | check parent' deadline' before =>
          obtain ⟨rfl, rfl, -⟩ := Activity.check.inj hcheck
          refine h.check_turn can deals hcheck fun hend => ?_
          cases stage with
          | finished link status => exact intime _ _ _ _ hcheck
          | _ => cases hend
      | _ => cases hcheck
    · exact h.check_of_ne apart deals hkey hne hold
    · obtain ⟨job, stage', hretry⟩ := hstarted _ (List.mem_of_getElem? hi)
      cases hretry

/-- What a check of the batch has found about a link is its verdict. -/
theorem Foreseen.eq_verdict (h : Foreseen s links first key c) (begun : checkedIn c = links)
    {parent : TaskKey} {deadline : Nat} {link : String} {status : LinkStatus}
    (hk : c.tasks[k]? = some (.check parent deadline (.finished link status))) :
    link ∈ links ∧ status = (verdict s.probe.network first link).1 :=
  ⟨begun ▸ mem_checkedIn hk, ((h.check k _ _ _ hk).2.2 (.inl rfl)).1.symm⟩

/-- When all checks are at their end, each link has been checked to its end. -/
theorem Foreseen.checked_to_end (h : Foreseen s links first key c) (joined : Joined c)
    {task : Task} {deadline : Nat} (hkey : c.tasks[key]? = some (.batch (.joining task deadline)))
    (ended : BatchCall.isJoined c.shared key = true) {link : String} (hmem : link ∈ checkedIn c) :
    ∃ (k : TaskKey) (deadline : Nat) (status : LinkStatus),
      c.tasks[k]? = some (.check key deadline (.finished link status)) := by
  obtain ⟨k, parent, deadline', stage, hk, rfl⟩ := exists_check hmem
  obtain ⟨rfl, -, -⟩ := h.check k _ _ _ hk
  have hend := joined.isFinished_of_isJoined hkey ended hk
  cases stage with
  | finished link status => exact ⟨k, deadline', status, hk⟩
  | _ => cases hend

/-- When all checks are at their end, their statuses are those of the verdicts. -/
theorem Foreseen.gathered (h : Foreseen s links first key c) (joined : Joined c)
    (merged : Merged deeds c)
    (listed : ∀ link status, status ∈ statuses deeds key link ↔ ∃ (k : TaskKey) (deadline : Nat),
      c.tasks[k]? = some (.check key deadline (.finished link status)))
    {task : Task} {deadline : Nat} (hkey : c.tasks[key]? = some (.batch (.joining task deadline)))
    (ended : BatchCall.isJoined c.shared key = true) :
    BatchCall.completed task.links (c.shared.found key)
      = outcomes s.probe.network first links := by
  obtain ⟨stage, hstage, hfollows⟩ := h.batch
  obtain rfl := Activity.batch.inj (Option.some.inj (hstage.symm.trans hkey))
  obtain ⟨hlinks, hbegun⟩ := hfollows
  refine Table.ext_get? fun link => ?_
  have hlast := merged.joining key task deadline hkey link
  rw [BatchCall.get?_completed, Probe.get?_outcomes, hlinks]
  cases hstatus : (c.shared.found key).get? link with
  | some status =>
      rw [hstatus] at hlast
      obtain ⟨k, deadline', hk⟩ := (listed link status).1 (List.mem_of_getLast? hlast.symm)
      obtain ⟨hmem, rfl⟩ := h.eq_verdict hbegun hk
      rw [if_pos hmem, if_pos hmem]
      rfl
  | none =>
      -- No check of the link has come to an end, so there is none.
      have hnone : statuses deeds key link = [] :=
        List.getLast?_eq_none_iff.1 (hlast.symm.trans hstatus)
      have hmem : link ∉ links := by
        intro hmem
        obtain ⟨k, deadline', status, hk⟩ :=
          h.checked_to_end joined hkey ended (hbegun.symm ▸ hmem)
        have hlisted := (listed link status).2 ⟨k, deadline', hk⟩
        rw [hnone] at hlisted
        cases hlisted
      rw [if_neg hmem, if_neg hmem]
      rfl

/-- A turn of the batch itself. -/
theorem BatchCall.Follows.step {network : Network} {now : Nat} {w : World} {stage : BatchCall}
    {begun : List String} (h : stage.Follows network first links begun)
    (refuses : s.front.Refuses)
    (gathers : ∀ task deadline, stage = .joining task deadline →
      BatchCall.completed task.links (w.found key) = outcomes network first links) :
    (stage.step s now key w).call.Follows network first links
      (begun ++ (stage.step s now key w).checks.map Prod.fst) := by
  cases stage with
  | creating caller visit =>
      obtain ⟨hcreates, rfl⟩ := h
      have hmoves := StoreService.moves_step s.front (s.moment now) now key w.service visit
      have hnext := hmoves.creates refuses hcreates
      cases visit with
      | answered answer =>
          rcases hcreates with ⟨e, rfl⟩ | ⟨task, rfl, hlinks⟩
          · rfl
          · cases hd : BatchCall.deadline? s now caller with
            | some d =>
                rw [BatchCall.step, BatchCall.launch_of_some hd]
                refine ⟨hlinks, ?_⟩
                simp only [List.map_map, List.nil_append]
                rw [← hlinks]
                exact List.map_id _
            | none =>
                rw [BatchCall.step, BatchCall.launch_of_none hd]
                rfl
      | _ => exact ⟨hnext, rfl⟩
  | joining task deadline =>
      obtain ⟨-, rfl⟩ := h
      exact ⟨gathers task deadline rfl, List.append_nil _⟩
  | updating task results visit =>
      obtain ⟨hresults, rfl⟩ := h
      cases visit with
      | answered answer => cases answer <;> exact ⟨hresults, List.append_nil _⟩
      | _ => exact ⟨hresults, List.append_nil _⟩
  | submitting task results =>
      obtain ⟨hresults, rfl⟩ := h
      exact ⟨hresults, List.append_nil _⟩
  | finished answer =>
      cases answer with
      | ok o =>
          obtain ⟨hresults, rfl⟩ := h
          exact ⟨hresults, List.append_nil _⟩
      | error e =>
          obtain rfl := h
          rfl
  | crashed task =>
      obtain rfl := h
      rfl

theorem checked_started (s : Settings) (now : Nat) (key : TaskKey) (w : World)
    (stage : BatchCall) :
    (Activity.step s now key w (.batch stage)).started.filterMap Activity.checked?
      = (stage.step s now key w).checks.map Prod.fst := by
  -- A job is no check.
  have hjobs : ∀ (l : List (TaskId × Results)) (f : TaskId × Results → Activity),
      (∀ p, (f p).checked? = none) → (l.map f).filterMap Activity.checked? = [] := by
    intro l f hnone
    rw [List.filterMap_map]
    exact List.filterMap_eq_nil_iff.2 fun p _ => hnone p
  rw [Activity.step, List.filterMap_append, hjobs _ _ fun _ => rfl, List.append_nil,
    List.filterMap_map]
  exact congrFun (List.filterMap_eq_map (f := Prod.fst)) _

/-- A turn of the batch. -/
theorem Foreseen.turn_batch (h : Foreseen s links first key c) (apart : links.Pairwise Apart)
    (below : ∀ link ∈ links, Below s.probe.policy first link) (refuses : s.front.Refuses)
    {stage : BatchCall}
    (deals : Deals s c.now key c.shared (.batch stage)
      (Activity.step s c.now key c.shared (.batch stage)))
    (hkey : c.tasks[key]? = some (.batch stage))
    (gathers : ∀ task deadline, stage = .joining task deadline →
      BatchCall.completed task.links (c.shared.found key)
        = outcomes s.probe.network first links) :
    Foreseen s links first key
      (c.after key (Activity.step s c.now key c.shared (.batch stage))) := by
  obtain ⟨stage', hstage, hfollows⟩ := h.batch
  obtain rfl := Activity.batch.inj (Option.some.inj (hkey.symm.trans hstage))
  have hscene : ∀ host, Spares host c.shared.scene
      (Activity.step s c.now key c.shared (.batch stage)).shared.scene := fun host =>
    deals.spares fun parent deadline stage' ha => Activity.noConfusion ha
  refine ⟨⟨(stage.step s c.now key c.shared).call, Crowd.getElem?_after_self hkey, ?_⟩,
    fun k' stage' hk' => ?_, fun k' parent deadline stage' hk' => ?_,
    h.spares_after deals hkey rfl⟩
  · rw [checkedIn_after hkey rfl, checked_started]
    exact hfollows.step refuses gathers
  · rcases Crowd.getElem?_after hkey hk' with ⟨rfl, -⟩ | ⟨-, hold⟩ | ⟨i, -, hi⟩
    · rfl
    · exact h.only k' stage' hold
    · rcases deals.started_cases (List.mem_of_getElem? hi) with
        ⟨link, task, deadline, heq, -⟩ | ⟨job, stage'', heq⟩ <;> cases heq
  · rcases Crowd.getElem?_after hkey hk' with ⟨-, htask⟩ | ⟨hne, hold⟩ | ⟨i, -, hi⟩
    · cases htask
    · exact h.check_of_ne apart deals hkey hne hold
    · -- The batch starts its checks; nothing has been asked so far.
      rcases deals.started_cases (List.mem_of_getElem? hi) with
        ⟨link, task, deadline', heq, htask, hlink⟩ | ⟨job, stage'', heq⟩
      · cases heq
        obtain ⟨caller, ha, -⟩ := deals.of_joining htask
        cases ha
        obtain ⟨hcreates, hbegun⟩ := hfollows
        rcases hcreates with ⟨e, he⟩ | ⟨task', htask', rfl⟩
        · cases he
        · cases htask'
          have hspares : SparesLink link first (Activity.step s c.now key c.shared
              (.batch (.creating caller (.answered (.ok (.task task)))))).shared.scene := by
            intro target _
            refine (h.spares target.host fun link hlink => ?_).trans (hscene target.host)
            rw [hbegun] at hlink
            cases hlink
          exact ⟨rfl, rfl, fun _ => ⟨Probe.verdict_congr hspares, (below link hlink).congr hspares⟩⟩
      · cases heq

end Turns

/-! ## Runs -/

/-- The checks that come to their end on a trail do so before their deadlines. -/
def EndsInTime (deeds : List (Deed World Activity)) : Prop :=
  ∀ d ∈ deeds, ∀ parent deadline link status,
    d.turn.task = .check parent deadline (.finished link status) → d.time < deadline

section Runs

variable {s : Settings} {links : List String} {first : Scene} {w : World} {start : Nat}
  {caller : Option Nat} {key : TaskKey} {deeds : List (Deed World Activity)}
  {c : Crowd World Activity}

/-- The idle engine when the call for a batch comes in. -/
def World.asked (w : World) (start : Nat) (links : List String) (caller : Option Nat) :
    Crowd World Activity :=
  (w.crowd.await start).call (.batch (.start links caller))

theorem Foreseen.of_asked (s : Settings) (links : List String) (w : World) (start : Nat)
    (caller : Option Nat) :
    Foreseen s links w.scene w.reports.workers (w.asked start links caller) := by
  have hlength : w.crowd.tasks.length = w.reports.workers := List.length_replicate
  have hcases : ∀ {k : TaskKey} {a : Activity}, (w.asked start links caller).tasks[k]? = some a →
      k = w.reports.workers ∧ a = .batch (.start links caller) ∨ a = .worker .idle := by
    intro k a hk
    rcases Crowd.getElem?_call hk with ⟨hlast, ha⟩ | hold
    · exact .inl ⟨hlast.trans hlength, ha⟩
    · exact .inr (World.eq_idle_of_crowd hold)
  refine ⟨⟨.start links caller, ?_, rfl, ?_⟩, fun k stage hk => ?_,
    fun k parent deadline stage hk => ?_, fun host _ => .refl host w.scene⟩
  · rw [← hlength]
    exact List.getElem?_concat_length
  · refine List.filterMap_eq_nil_iff.2 fun a ha => ?_
    obtain ⟨k, hk⟩ := List.getElem?_of_mem ha
    rcases hcases hk with ⟨-, rfl⟩ | rfl <;> rfl
  · rcases hcases hk with ⟨hlast, -⟩ | hidle
    · exact hlast
    · cases hidle
  · rcases hcases hk with ⟨-, hbatch⟩ | hidle
    · cases hbatch
    · cases hidle

/-- What a run of one batch does is done on a trail of the engine from its beginning. -/
theorem trail_of_asked (trail : Crowd.Trail (process s) Crowd.anyTime Crowd.noCall
    (w.asked start links caller) deeds c) :
    Crowd.Trail (amid s fun _ _ _ => s.probe.network) Crowd.anyTime Requested w.crowd deeds c := by
  have hasked : Crowd.Trail (amid s fun _ _ _ => s.probe.network) Crowd.anyTime Requested w.crowd []
      (w.asked start links caller) :=
    (Crowd.Trail.begin.await (Nat.zero_le start) trivial).call (Requested.check links caller)
  exact hasked.trans (trail.mono (fun _ _ h => h) fun _ h => h.elim)

/-- In every run all goes as foreseen. -/
theorem Foreseen.of_trail (refuses : s.front.Refuses) (apart : links.Pairwise Apart)
    (below : ∀ link ∈ links, Below s.probe.policy w.scene link)
    (trail : Crowd.Trail (process s) Crowd.anyTime Crowd.noCall (w.asked start links caller)
      deeds c)
    (intime : EndsInTime deeds) : Foreseen s links w.scene w.reports.workers c := by
  induction trail with
  | begin => exact .of_asked s links w start caller
  | @turn deeds c k a trail can ih =>
      have h := ih fun d hd => intime d (List.mem_append_left _ hd)
      have whole := trail_of_asked trail
      have joined := Joined.of_run whole.run
      have deals := joined.deals can
      by_cases hbatch : ∃ stage, a = .batch stage
      · obtain ⟨stage, rfl⟩ := hbatch
        obtain rfl := h.only k stage can.here
        refine h.turn_batch apart below refuses deals can.here fun task deadline hjoining => ?_
        subst hjoining
        exact h.gathered joined (.of_trail whole) (mem_statuses_iff whole _) can.here
          (deals.isJoined rfl)
      · refine h.turn_other apart deals can (fun stage ha => hbatch ⟨stage, ha⟩)
          fun parent deadline link status htask => ?_
        exact intime _ (List.mem_append_right _ (List.mem_singleton_self _)) _ _ _ _ htask
  | @await deeds c later trail le may ih =>
      obtain ⟨hbatch, honly, hcheck, hspares⟩ := ih intime
      refine ⟨hbatch, honly, fun k parent deadline stage hk => ?_, hspares⟩
      obtain ⟨hparent, hisOf, hheads⟩ := hcheck k parent deadline stage hk
      exact ⟨hparent, hisOf, fun hlate => hheads (hlate.imp_right (Nat.lt_of_le_of_lt le))⟩
  | call trail may ih => exact may.elim

/-- When the batch has its answer, all is as the verdicts say. -/
theorem Foreseen.decided (h : Foreseen s links first key c) (joined : Joined c) {o : Outcome}
    (answered : Answered c key (.ok o)) :
    Probe.Decided s.probe links first o.results c.shared.scene := by
  obtain ⟨stage, hstage, hfollows⟩ := h.batch
  obtain rfl := Activity.batch.inj (Option.some.inj (hstage.symm.trans answered))
  obtain ⟨hresults, hbegun⟩ := hfollows
  refine .of_verdicts (fun link => ?_) (fun link hlink target htarget => ?_) (hbegun ▸ h.spares)
  · rw [hresults, Probe.get?_outcomes]
  · rw [← hbegun] at hlink
    obtain ⟨k, parent, deadline, stage, hk, rfl⟩ := exists_check hlink
    obtain ⟨rfl, -, hheads⟩ := h.check k _ _ _ hk
    -- A check that is not at its end would still have the batch waiting for it.
    have hend : stage.isFinished = true := by
      by_contra hgoing
      obtain ⟨task, hjoining, -⟩ := joined.parents k parent deadline stage hk
        (Bool.not_eq_true _ ▸ hgoing)
      cases Option.some.inj (hjoining.symm.trans answered)
    have hfinal := hheads (.inl hend)
    cases stage with
    | finished link status => exact hfinal.2 target htarget
    | _ => cases hend

end Runs

/-- Whatever the number of permits, the order of turns and the passing of time, a batch whose links
    have hosts of their own, with closed circuits, comes to the same, if its checks end before their
    deadlines: to the same status of each link and to the same number of failures of each host.
    These are the ones that probes of the links one after the other come to, in any order, if each
    of them ends before its deadline. -/
theorem same_in_any_order {s : Settings} (refuses : s.front.Refuses) {links : List String}
    (apart : links.Pairwise Apart) {first : Scene}
    (below : ∀ link ∈ links, Below s.probe.policy first link) :
    (∀ w : World, w.scene = first → ∀ start caller deeds c o,
      Crowd.Trail (process s) Crowd.anyTime Crowd.noCall (w.asked start links caller) deeds c →
      EndsInTime deeds → Answered c w.reports.workers (.ok o) →
      Probe.Decided s.probe links first o.results c.shared.scene) ∧
    ∀ order, order.Perm links → ∀ start last final results,
      InTurn s.probe order start first .empty last final results →
      Probe.Decided s.probe links first results final := by
  refine ⟨?_, fun order perm start last final results h => h.decided perm below apart⟩
  rintro w rfl start caller deeds c o trail intime answered
  have joined := Joined.of_run (trail_of_asked trail).run
  exact (Foreseen.of_trail refuses apart below trail intime).decided joined answered

/-! ## Two hosts -/

theorem candidate?_dots : Link.candidate? ".." =
    some ⟨Link.secureScheme, [], [], some (.domain ['.', '.']), none, .segments [[]], none, none⟩ :=
  have hhost : Url.Host.parse? ['.', '.'] = some (.domain ['.', '.']) :=
    Url.Host.parse?_of_ascii (by decide) (by decide) (by decide) rfl (by decide)
  (Link.candidate?_of_host rfl (by decide) (by decide) hhost).trans (by decide)

theorem candidate?_plain : Link.candidate? "http://localhost" = none := by
  decide +kernel

/-- Two links with hosts of their own, and one without a host, twice. -/
def sampleLinks : List String := [".", "http://localhost", "..", "http://localhost"]

/-- The targets of those that have one. -/
def sampleTarget? (link : String) : Option Probe.Target :=
  if link = "." then some sampleTarget
  else if link = ".." then some ⟨"https://../".toList, ".."⟩
  else none

/-- A network on which one host fails once, and the other one always. -/
def failingNetwork : Network where
  lookup _ := ⟨.ok [.v4 (Address.ofOctets 8 8 8 8)], some 5⟩
  reply host k := if host = ".." ∨ k = 0 then ⟨.ok 503, some 10⟩ else ⟨.ok 200, some 20⟩

/-- Settings with that network. -/
def failingSettings : Settings := sampleSettings.over failingNetwork

/-- The world with a number of permits. -/
def sampleWorld (permits : Nat) : World :=
  .initial .manual (.ofStore (.fresh (.sample .zero)) ⟨.empty⟩) permits 1

/-- A probe of a link with a target has a name looked up. -/
theorem step_of_target {link : String} {target : Probe.Target}
    (h : sampleTarget? link = some target) (now deadline : Nat) (scene : Scene) :
    Probe.step (sampleSettings.over failingNetwork).probe now deadline scene (.fresh link)
      = ({ scene with traffic := scene.traffic.addLookup target.host },
          .lookingUp target (.ok [.v4 (Address.ofOctets 8 8 8 8)]) (some (now + 5))) := by
  unfold sampleTarget? at h
  split at h
  · next hlink =>
    cases h
    rw [hlink, Probe.step, Probe.begin, Probe.Course.candidate?_root]
    rfl
  · split at h
    · next hlink =>
      cases h
      rw [hlink, Probe.step, Probe.begin, candidate?_dots]
      rfl
    · cases h

/-- The crowd after a turn in which the name of a link with a target is to be looked up. -/
def look? (key : TaskKey) (c : Crowd World Activity) : Option (Crowd World Activity) := do
  let (parent, deadline, link) ← c.tasks[key]?.bind Activity.looking?
  let target ← sampleTarget? link
  some ⟨c.now, { c.shared with scene :=
      { c.shared.scene with traffic := c.shared.scene.traffic.addLookup target.host } },
    c.tasks.set key (.check parent deadline (.probing link
      (.lookingUp target (.ok [.v4 (Address.ofOctets 8 8 8 8)]) (some (c.now + 5)))))⟩

/-- The crowd after turns of the given tasks at the given times, if these can go on then. -/
def playAt? : List (Nat × TaskKey) → Crowd World Activity → Option (Crowd World Activity)
  | [], c => some c
  | (time, key) :: plan, c =>
    if c.now ≤ time then
      ((look? key (c.await time)).or ((c.await time).next? (process failingSettings) key)).bind
        (playAt? plan)
    else none

section Plays

variable {first c c' : Crowd World Activity} {n : Nat}

theorem run_look? (run : Crowd.Run (process failingSettings) Crowd.anyTime Crowd.noCall first n c)
    {key : TaskKey} (h : look? key c = some c') :
    Crowd.Run (process failingSettings) Crowd.anyTime Crowd.noCall first (n + 1) c' := by
  obtain ⟨⟨parent, deadline, link⟩, hlooking, h⟩ := Option.bind_eq_some_iff.1 h
  obtain ⟨target, htarget, h⟩ := Option.bind_eq_some_iff.1 h
  obtain ⟨a, hkey, ha⟩ := Option.bind_eq_some_iff.1 hlooking
  rw [Activity.eq_of_looking? ha] at hkey
  have hturn : c.turn (amid sampleSettings fun _ _ _ => failingNetwork) key
      (.check parent deadline (.probing link (.fresh link))) = c' := by
    rw [← Option.some.inj h, Crowd.turn, step_probing rfl (step_of_target htarget ..), Crowd.after,
      List.append_nil]
  exact hturn ▸ run.turn (canGo_probing hkey rfl)

theorem run_playAt? (run : Crowd.Run (process failingSettings) Crowd.anyTime Crowd.noCall first n c)
    {plan : List (Nat × TaskKey)} (h : playAt? plan c = some c') :
    ∃ n, Crowd.Run (process failingSettings) Crowd.anyTime Crowd.noCall first n c' := by
  induction plan generalizing n c with
  | nil =>
      cases h
      exact ⟨n, run⟩
  | cons move plan ih =>
      obtain ⟨time, key⟩ := move
      rw [playAt?] at h
      split at h
      · next hle =>
        have waited := run.await hle trivial
        obtain ⟨mid, hmid, hplay⟩ := Option.bind_eq_some_iff.1 h
        rcases Option.or_eq_some_iff.1 hmid with hlook | ⟨-, hnext⟩
        · exact ih (run_look? waited hlook) hplay
        · exact ih (waited.next? hnext) hplay
      · cases h

/-- Turns at some times, for each of these one after the other. -/
def turnsAt (plan : List (Nat × List TaskKey)) : List (Nat × TaskKey) :=
  plan.flatMap fun entry => entry.2.map (entry.1, ·)

/-- A batch has its answer, and no check of it has come to its deadline. -/
def isOver (c : Crowd World Activity) : Bool :=
  (c.tasks[1]?.bind Activity.outcome?).isSome && c.tasks.all fun a => match a with
    | .check _ deadline _ => c.now < deadline
    | _ => true

/-- With a number of permits, turns at these times lead to the answer. -/
theorem ends_of_plan (permits : Nat) (plan : List (Nat × List TaskKey))
    (h : (playAt? (turnsAt plan) ((sampleWorld permits).asked 0 sampleLinks none)).any isOver
      = true) :
    ∃ deeds c o, Crowd.Trail (process failingSettings) Crowd.anyTime Crowd.noCall
        ((sampleWorld permits).asked 0 sampleLinks none) deeds c ∧
      EndsInTime deeds ∧ Answered c 1 (.ok o) := by
  obtain ⟨c, hplay, hover⟩ := (Option.any_eq_true _ _).1 h
  obtain ⟨hanswer, htime⟩ := Bool.and_eq_true_iff.1 hover
  obtain ⟨o, ho⟩ := Option.isSome_iff_exists.1 hanswer
  obtain ⟨b, hb, ho⟩ := Option.bind_eq_some_iff.1 ho
  obtain ⟨n, run⟩ := run_playAt? .begin hplay
  obtain ⟨deeds, trail⟩ := run.trail
  refine ⟨deeds, c, o, trail, fun d hd parent deadline link status htask => ?_,
    hb.trans (congrArg some (Activity.eq_of_outcome? ho))⟩
  obtain ⟨hle, hkey⟩ := trail.ended d hd (by rw [htask]; rfl)
  rw [htask] at hkey
  have hlt := List.all_eq_true.1 htime _ (List.mem_of_getElem? hkey)
  exact Nat.lt_of_le_of_lt hle (of_decide_eq_true hlt)

end Plays

theorem alone_plain (deadline now : Nat) (scene : Scene) :
    Alone failingSettings.probe deadline "http://localhost" now scene now scene
      (.finished .notAvailable) := by
  have begins : Alone failingSettings.probe deadline "http://localhost" now scene now scene
    (.fresh "http://localhost") := .begin
  have ends := begins.turn rfl rfl
  rwa [Probe.step, Probe.begin, candidate?_plain] at ends

theorem alone_looks (link : String) {target : Probe.Target} (h : sampleTarget? link = some target)
    (deadline now : Nat) (scene : Scene) :
    Alone failingSettings.probe deadline link now scene (now + 5)
      { scene with traffic := scene.traffic.addLookup target.host }
      (.lookingUp target (.ok [.v4 (Address.ofOctets 8 8 8 8)]) (some (now + 5))) := by
  have begins : Alone failingSettings.probe deadline link now scene now scene (.fresh link) :=
    .begin
  have looks := begins.turn rfl rfl
  rw [failingSettings, step_of_target h] at looks
  exact looks.await (Nat.le_add_right now 5)

/-- What a probe of the host that always fails leaves. -/
def failedScene : Scene where
  traffic :=
    { calls := [25, 15, 5].map (⟨·, "..", "https://../".toList⟩)
      lookups := [".."]
      unanswered := 0
      peak := 1 }
  circuits := .insert .empty ".." ⟨3, .ofMillis 400⟩
  clock := ⟨.manual, .ofMillis 400, [.ofMillis 300, .ofMillis 100]⟩

/-- The links one after the other, in another order. -/
theorem in_turn_sample : ∃ final results,
    InTurn failingSettings.probe ["..", "http://localhost", ".", "http://localhost"] 0
      Probe.Course.sampleScene .empty 70 final results ∧
    final.circuits.failureCount ".." = 3 ∧ results.get? "." = some .available := by
  have dots : Alone failingSettings.probe 5000 ".." 0 Probe.Course.sampleScene 35 failedScene
      (.finished .notAvailable) := by
    have first := (alone_looks ".." rfl 5000 0 Probe.Course.sampleScene).turn rfl rfl
    have second := ((first.await (show 5 ≤ 15 by decide)).turn rfl rfl).turn rfl rfl
    have third := ((second.await (show 15 ≤ 25 by decide)).turn rfl rfl).turn rfl rfl
    exact (third.await (show 25 ≤ 35 by decide)).turn rfl rfl
  have first := (alone_looks "." rfl 5000 35 failedScene).turn rfl rfl
  have second := ((first.await (show 40 ≤ 50 by decide)).turn rfl rfl).turn rfl rfl
  have root := (second.await (show 50 ≤ 70 by decide)).turn rfl rfl
  exact ⟨_, _, .next dots (by decide) (.next (alone_plain 5000 35 failedScene) (by decide)
    (.next root (by decide) (.next (alone_plain 5000 70 _) (by decide) .done))), rfl, rfl⟩

theorem target?_sample : ∀ link ∈ sampleLinks, target? link = sampleTarget? link := by
  have hroot := Probe.target?_of_candidate Probe.Course.candidate?_root
  have hdots := Probe.target?_of_candidate candidate?_dots
  have hplain : target? "http://localhost" = none := by
    rw [Probe.target?, candidate?_plain]
    rfl
  simp only [sampleLinks, List.forall_mem_cons, hroot, hdots, hplain]
  exact ⟨rfl, rfl, rfl, rfl, List.forall_mem_nil _⟩

theorem apart_sample : sampleLinks.Pairwise Apart := by
  have hosts : sampleLinks.Pairwise fun link link' => ∀ target ∈ sampleTarget? link,
      ∀ target' ∈ sampleTarget? link', target.host ≠ target'.host := by
    decide +kernel
  refine hosts.imp_of_mem fun hlink hlink' h target target' htarget htarget' => ?_
  rw [target?_sample _ hlink] at htarget
  rw [target?_sample _ hlink'] at htarget'
  exact h target htarget target' htarget'

/-- With one permit, with two, and one after the other in another order, the batch comes to the
    same: one host has failed three times, the other one is available. -/
theorem same_in_any_order_two_hosts : ∃ deeds c o deeds' c' o' final results,
    Crowd.Trail (process failingSettings) Crowd.anyTime Crowd.noCall
      ((sampleWorld 1).asked 0 sampleLinks none) deeds c ∧ Answered c 1 (.ok o) ∧
    Crowd.Trail (process failingSettings) Crowd.anyTime Crowd.noCall
      ((sampleWorld 2).asked 0 sampleLinks none) deeds' c' ∧ Answered c' 1 (.ok o') ∧
    InTurn failingSettings.probe ["..", "http://localhost", ".", "http://localhost"] 0
      Probe.Course.sampleScene .empty 70 final results ∧
    final.circuits.failureCount ".." = 3 ∧ results.get? "." = some .available ∧
    o.results = results ∧ o'.results = results ∧
    ∀ host, c.shared.scene.circuits.failureCount host = final.circuits.failureCount host ∧
      c'.shared.scene.circuits.failureCount host = final.circuits.failureCount host := by
  obtain ⟨deeds, c, o, trail, intime, answered⟩ := ends_of_plan 1
    [(0, [1, 1, 1, 1, 1, 2, 3, 4, 5, 2, 2]), (5, [2]), (15, [2, 2]), (35, [2, 2, 3, 3, 3, 4, 4]),
      (40, [4]), (50, [4, 4]), (60, [4, 4]), (70, [4, 4, 5, 5, 5, 1, 1, 1, 1, 1])]
    (by decide +kernel)
  obtain ⟨deeds', c', o', trail', intime', answered'⟩ := ends_of_plan 2
    [(0, [1, 1, 1, 1, 1, 2, 3, 4, 5, 2, 3, 3, 3, 4, 4, 2]), (5, [4, 2]), (15, [4, 4, 2, 2]),
      (25, [4, 4]), (35, [4, 4, 2, 2, 5, 5, 5, 1, 1, 1, 1, 1])]
    (by decide +kernel)
  obtain ⟨final, results, inTurn, hfailures, havailable⟩ := in_turn_sample
  have below : ∀ link ∈ sampleLinks,
      Below failingSettings.probe.policy Probe.Course.sampleScene link :=
    fun link _ target _ => Nat.zero_lt_succ 2
  have refuses : failingSettings.front.Refuses := refuses_onceRefusing
  obtain ⟨hbatches, horders⟩ := same_in_any_order refuses apart_sample below
  have one := hbatches (sampleWorld 1) rfl 0 none deeds c o trail intime answered
  have two := hbatches (sampleWorld 2) rfl 0 none deeds' c' o' trail' intime' answered'
  have ordered := horders _ (by decide) 0 70 final results inTurn
  refine ⟨deeds, c, o, deeds', c', o', final, results, trail, answered, trail', answered', inTurn,
    hfailures, havailable, one.results_eq.trans ordered.results_eq.symm,
    two.results_eq.trans ordered.results_eq.symm, fun host => ⟨?_, ?_⟩⟩
  · rw [one.count_eq, ordered.count_eq]
  · rw [two.count_eq, ordered.count_eq]

end Reachability.Engine
