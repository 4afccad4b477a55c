import Mathlib.Data.List.Perm.Subperm
import Reachability.Proofs.Engine.Checks
import Reachability.Proofs.Engine.Persistence

set_option autoImplicit false

/-! # How many links are checked at once

All batches share the permits to check a link. Whoever is in line or probes is served by them, and
whoever probes has one (`Staffed`); a check gives its permit back, or its place in line, in the turn
in which it ends, however it ends. So there are never more requests on their way than permits, and
between batches all permits are free (`permits_bound`). -/

namespace Reachability

/-- The numbers of the tasks of some kind. -/
def Crowd.keys {σ τ : Type} (P : τ → Bool) (c : Crowd σ τ) : List TaskKey :=
  (List.range c.tasks.length).filter fun key => c.tasks[key]?.any P

namespace Crowd

variable {σ τ : Type} {P : τ → Bool} {c : Crowd σ τ} {key : TaskKey}

theorem nodup_keys : (c.keys P).Nodup := List.nodup_range.filter _

theorem mem_keys (h : key ∈ c.keys P) : c.tasks[key]?.any P = true := (List.mem_filter.1 h).2

end Crowd

namespace Engine

/-- Whether a task has a permit to check a link or waits for one. -/
def Activity.isServed : Activity → Bool
  | check _ _ (.inLine _) => true
  | check _ _ (.probing ..) => true
  | _ => false

/-- Whether a task probes the host of a link. -/
def Activity.isProbing : Activity → Bool
  | check _ _ (.probing ..) => true
  | _ => false

/-- Whether a task has a request on its way. -/
def Activity.isRequesting : Activity → Bool
  | check _ _ (.probing _ (.requesting ..)) => true
  | _ => false

theorem Activity.isProbing_of_isRequesting {a : Activity} (h : a.isRequesting = true) :
    a.isProbing = true := by
  unfold isRequesting at h
  split at h
  · rfl
  · cases h

theorem Activity.isServed_of_isProbing {a : Activity} (h : a.isProbing = true) :
    a.isServed = true := by
  unfold isProbing at h
  split at h
  · rfl
  · cases h

/-- Only checks that are not at their end are served. -/
theorem Activity.check_of_isServed {a : Activity} (h : a.isServed = true) :
    ∃ parent deadline stage, a = .check parent deadline stage ∧ stage.isFinished = false := by
  unfold isServed at h
  split at h
  · exact ⟨_, _, _, rfl, rfl⟩
  · exact ⟨_, _, _, rfl, rfl⟩
  · cases h

/-- Permits that serve the checks that are in line or probe, and those that probe have one. -/
structure Staffed (permits : Nat) (c : Crowd World Activity) : Prop where
  total : c.shared.permits.total = permits
  serves : c.shared.permits.Serves fun key => c.tasks[key]?.any Activity.isServed = true
  holding : ∀ key : TaskKey, c.tasks[key]?.any Activity.isProbing = true →
    c.shared.permits.holds key = true

namespace Staffed

variable {s : Settings} {permits : Nat} {c : Crowd World Activity} {key : TaskKey} {a : Activity}
  {t : Turn World Activity}

/-- What is left to show after a turn is what became of the task that had it. -/
theorem of_turn (deals : Deals s c.now key c.shared a t) (hkey : c.tasks[key]? = some a)
    (total : t.shared.permits.total = permits)
    (serves : t.shared.permits.Serves fun other =>
      if other = key then t.task.isServed = true else c.tasks[other]?.any Activity.isServed = true)
    (self : t.task.isProbing = true → t.shared.permits.holds key = true)
    (others : ∀ other, other ≠ key → c.tasks[other]?.any Activity.isProbing = true →
      t.shared.permits.holds other = true) : Staffed permits (c.after key t) := by
  have hfresh : ∀ b ∈ t.started, b.isServed = false ∧ b.isProbing = false := by
    intro b hb
    rcases deals.started_cases hb with ⟨link, task, deadline, rfl, -⟩ | ⟨job, stage, rfl⟩ <;>
      exact ⟨rfl, rfl⟩
  refine ⟨total, serves.congr fun other => ?_, fun other hprobing => ?_⟩
  · by_cases hne : other = key
    · rw [if_pos hne, hne, Crowd.getElem?_after_self hkey, Option.any_some]
    · rw [if_neg hne, Crowd.any_after _ hne fun b hb => (hfresh b hb).1]
  · by_cases hne : other = key
    · rw [hne, Crowd.getElem?_after_self hkey, Option.any_some] at hprobing
      rw [hne]
      exact self hprobing
    · rw [Crowd.any_after _ hne fun b hb => (hfresh b hb).2] at hprobing
      exact others other hne hprobing

/-- A turn that leaves the permits alone, and its task where it is among them. -/
theorem of_same (h : Staffed permits c) (deals : Deals s c.now key c.shared a t)
    (hkey : c.tasks[key]? = some a) (hpermits : t.shared.permits = c.shared.permits)
    (hserved : t.task.isServed = a.isServed)
    (hprobing : t.task.isProbing = true → c.shared.permits.holds key = true) :
    Staffed permits (c.after key t) := by
  refine of_turn deals hkey (hpermits ▸ h.total) ?_ (hpermits ▸ hprobing) fun other _ => ?_
  · rw [hpermits]
    refine h.serves.congr fun other => ?_
    by_cases hne : other = key
    · rw [if_pos hne, hne, hkey, Option.any_some, hserved]
    · rw [if_neg hne]
  · rw [hpermits]
    exact h.holding other

/-- A task that is served no more, with the permits without it. -/
theorem of_gone (h : Staffed permits c) (deals : Deals s c.now key c.shared a t)
    (hkey : c.tasks[key]? = some a) (total : t.shared.permits.total = c.shared.permits.total)
    (serves : t.shared.permits.Serves fun other =>
      c.tasks[other]?.any Activity.isServed = true ∧ other ≠ key)
    (gone : t.task.isServed = false)
    (others : ∀ other, other ≠ key → c.shared.permits.holds other = true →
      t.shared.permits.holds other = true) : Staffed permits (c.after key t) := by
  refine of_turn deals hkey (total.trans h.total) (serves.congr fun other => ?_)
    (fun hprobing => ?_) fun other hne hprobing => others other hne (h.holding other hprobing)
  · by_cases hne : other = key
    · rw [if_pos hne, gone]
      exact ⟨fun hboth => absurd hne hboth.2, nofun⟩
    · rw [if_neg hne]
      exact and_iff_left hne
  · rw [Activity.isServed_of_isProbing hprobing] at gone
    cases gone

/-- Turns keep the permits with those whom they serve. -/
theorem after (h : Staffed permits c) (deals : Deals s c.now key c.shared a t)
    (hkey : c.tasks[key]? = some a) : Staffed permits (c.after key t) := by
  have hserved : a.isServed = true → c.tasks[key]?.any Activity.isServed = true := by
    intro hserved
    rw [hkey, Option.any_some, hserved]
  have hholds : a.isProbing = true → c.shared.permits.holds key = true := by
    intro hprobing
    exact h.holding key (by rw [hkey, Option.any_some, hprobing])
  have haside : ∀ {b : Activity}, b.isAside = true → b.isServed = false ∧ b.isProbing = false := by
    intro b hb
    cases b <;> first | exact ⟨rfl, rfl⟩ | cases hb
  have hdeals := deals
  cases deals with
  | launches => exact h.of_same hdeals hkey rfl rfl nofun
  | gathers joined => exact h.of_same hdeals hkey rfl rfl nofun
  | @queues parent deadline link =>
      have hnew : ¬ c.tasks[key]?.any Activity.isServed = true := by
        rw [hkey]
        exact Bool.false_ne_true
      refine of_turn hdeals hkey ((Permits.total_request ..).trans h.total)
        ((h.serves.request hnew).congr fun other => ?_) nofun fun other _ hprobing =>
          Permits.holds_request (h.holding other hprobing)
      by_cases hne : other = key
      · rw [if_pos hne]
        exact iff_of_true (.inr hne) rfl
      · rw [if_neg hne]
        exact or_iff_left hne
  | starts holds => exact h.of_same hdeals hkey rfl rfl fun _ => holds
  | givesUp without late =>
      refine h.of_gone hdeals hkey ?_ ?_ rfl fun other _ hholds => ?_
      · rw [LinkCheck.permits_report, Permits.total_leave]
      · rw [LinkCheck.permits_report]
        exact h.serves.leave without
      · rw [LinkCheck.permits_report]
        exact hholds
  | probes going => exact h.of_same hdeals hkey rfl rfl fun _ => hholds rfl
  | ends =>
      refine h.of_gone hdeals hkey ?_ ?_ rfl fun other hne hother => ?_
      · rw [LinkCheck.permits_report, Permits.total_release]
      · rw [LinkCheck.permits_report]
        exact h.serves.release (hholds rfl)
      · rw [LinkCheck.permits_report]
        exact Permits.holds_release_of_ne hne hother
  | aside haway =>
      refine h.of_same hdeals hkey haway.permits ?_ fun hprobing => ?_
      · rw [(haside haway.after).1, (haside haway.before).1]
      · rw [(haside haway.after).2] at hprobing
        cases hprobing

/-- Callers come without permits. -/
theorem call (h : Staffed permits c) (asked : Requested a) : Staffed permits (c.call a) where
  total := h.total
  serves := h.serves.congr fun other => by rw [Crowd.any_call _ (by cases asked <;> rfl)]
  holding other hprobing := by
    rw [Crowd.any_call _ (by cases asked <;> rfl)] at hprobing
    exact h.holding other hprobing

/-- Before anybody has asked for anything, all permits are free. -/
theorem first (clock : ClockKind) (service : StoreService) (workers reportWorkers : Nat) :
    Staffed (orElse workers standardWorkers)
      (World.initial clock service workers reportWorkers).crowd := by
  have hidle : ∀ (P : Activity → Bool) (key : TaskKey), P (.worker .idle) = false →
      ¬ (World.initial clock service workers reportWorkers).crowd.tasks[key]?.any P = true := by
    intro P key hP hany
    obtain ⟨a, ha, htrue⟩ := (Option.any_eq_true _ _).1 hany
    rw [World.eq_idle_of_crowd ha, hP] at htrue
    cases htrue
  refine ⟨rfl, (Permits.serves_ofNat _).congr fun key => ?_, fun key hprobing => ?_⟩
  · exact (iff_false_intro (hidle _ key rfl)).symm
  · exact absurd hprobing (hidle _ key rfl)

/-! ## What follows -/

theorem holders_length_le (h : Staffed permits c) : c.shared.permits.holders.length ≤ permits := by
  rw [← h.total, Permits.total]
  exact Nat.le_add_left ..

theorem nodup_holders (h : Staffed permits c) : c.shared.permits.holders.Nodup :=
  (List.nodup_append.1 h.serves.nodup).1

/-- Only checks that are not at their end have permits. -/
theorem check_of_holds (h : Staffed permits c) (hholds : key ∈ c.shared.permits.holders) :
    ∃ parent deadline stage, c.tasks[key]? = some (.check parent deadline stage) ∧
      stage.isFinished = false := by
  obtain ⟨a, ha, hserved⟩ :=
    (Option.any_eq_true _ _).1 (h.serves.of_holds (Permits.holds_iff.2 hholds))
  obtain ⟨parent, deadline, stage, rfl, going⟩ := Activity.check_of_isServed hserved
  exact ⟨parent, deadline, stage, ha, going⟩

/-- Who has a request on its way has a permit. -/
theorem holds_of_requesting (h : Staffed permits c) (hkey : key ∈ c.keys Activity.isRequesting) :
    key ∈ c.shared.permits.holders := by
  obtain ⟨a, ha, hrequesting⟩ := (Option.any_eq_true _ _).1 (Crowd.mem_keys hkey)
  refine Permits.holds_iff.1 (h.holding key ?_)
  rw [ha, Option.any_some, Activity.isProbing_of_isRequesting hrequesting]

theorem requesting_length_le (h : Staffed permits c) :
    (c.keys Activity.isRequesting).length ≤ c.shared.permits.holders.length :=
  (List.subperm_of_subset Crowd.nodup_keys fun _ hkey => h.holds_of_requesting hkey).length_le

/-- When no batch waits for its checks, nobody has a permit and nobody waits for one. -/
theorem permits_eq (h : Staffed permits c) (joined : Joined c)
    (idle : ∀ (key : TaskKey) a, c.tasks[key]? = some a → a.isJoining = false) :
    c.shared.permits = .ofNat permits := by
  have hnone : c.shared.permits.holders ++ c.shared.permits.waiting = [] := by
    refine List.eq_nil_iff_forall_not_mem.2 fun key hkey => ?_
    obtain ⟨a, ha, hserved⟩ := (Option.any_eq_true _ _).1 ((h.serves.mem_iff key).1 hkey)
    obtain ⟨parent, deadline, stage, rfl, going⟩ := Activity.check_of_isServed hserved
    obtain ⟨task, hparent, -⟩ := joined.parents key parent deadline stage ha going
    cases idle parent _ hparent
  obtain ⟨hholders, hwaiting⟩ := List.append_eq_nil_iff.1 hnone
  have htotal := h.total
  rw [Permits.total, hholders, List.length_nil, Nat.add_zero] at htotal
  calc c.shared.permits
      = ⟨c.shared.permits.free, c.shared.permits.holders, c.shared.permits.waiting⟩ := rfl
    _ = .ofNat permits := by rw [htotal, hholders, hwaiting, Permits.ofNat]

/-- In every run, the permits stay with those whom they serve. -/
theorem of_run {networks : Nat → TaskKey → World → Network} {clock : ClockKind}
    {service : StoreService} {workers reportWorkers n : Nat}
    {pace : Crowd World Activity → Nat → Prop}
    (run : Crowd.Run (amid s networks) pace Requested
      (World.initial clock service workers reportWorkers).crowd n c) :
    Staffed (orElse workers standardWorkers) c := by
  induction run with
  | begin => exact first clock service workers reportWorkers
  | turn run can ih => exact ih.after ((Joined.of_run run).deals can) can.here
  | await run le may ih => exact ⟨ih.total, ih.serves, ih.holding⟩
  | call run may ih => exact ih.call may

end Staffed

/-- Batches, reports and callers that wait, in any order of turns and amid any networks: the tasks
    that have a permit are different checks that are not at their end, no more than there are
    permits; each request on its way is made by one of them; and while no batch is being checked, no
    permit is taken and nobody waits for one. -/
theorem permits_bound {s : Settings} {networks : Nat → TaskKey → World → Network}
    {clock : ClockKind} {service : StoreService} {workers reportWorkers n : Nat}
    {c : Crowd World Activity}
    (run : Crowd.Run (amid s networks) Crowd.anyTime Requested
      (World.initial clock service workers reportWorkers).crowd n c) :
    (c.shared.permits.holders.Nodup ∧ c.shared.permits.holders.length ≤ orElse workers 100 ∧
      ∀ key ∈ c.shared.permits.holders, ∃ parent deadline stage,
        c.tasks[key]? = some (.check parent deadline stage) ∧ stage.isFinished = false) ∧
    ((c.keys Activity.isRequesting).length ≤ orElse workers 100 ∧
      ∀ key ∈ c.keys Activity.isRequesting, key ∈ c.shared.permits.holders) ∧
    (AllEnded c → c.shared.permits = .ofNat (orElse workers 100)) := by
  have hstaffed := Staffed.of_run run
  have hheld : c.shared.permits.holders.length ≤ orElse workers 100 := hstaffed.holders_length_le
  refine ⟨⟨hstaffed.nodup_holders, hheld, fun key hkey => hstaffed.check_of_holds hkey⟩,
    ⟨Nat.le_trans hstaffed.requesting_length_le hheld,
      fun key hkey => hstaffed.holds_of_requesting hkey⟩, fun hall => ?_⟩
  refine hstaffed.permits_eq (.of_run run) fun key a ha => ?_
  cases a with
  | batch stage =>
      cases stage with
      | finished answer => rfl
      | crashed task => rfl
      | _ => cases hall key _ ha
  | _ => rfl

/-- Of two checks with one permit between them, one has its request on its way. -/
theorem permits_bound_one_permit : ∃ (n : Nat) (c : Crowd World Activity),
    Crowd.Run (amid sampleSettings sampleNetworks) Crowd.anyTime Requested sampleCrowd n c ∧
      c.shared.permits = ⟨0, [2], [3]⟩ ∧ 2 ∈ c.keys Activity.isRequesting ∧
      (c.keys Activity.isRequesting).length ≤ 1 := by
  obtain ⟨n, c, run, hpermits, -, can, scene, left, outcome, finish, hstep, -⟩ := sample_answered
  have run' := run.turn can
  have htask : (c.turn (amid sampleSettings sampleNetworks) 2 sampleAnswered).tasks[2]?
      = some (.check 1 5000 (.probing "." (.requesting sampleTarget left outcome finish))) := by
    rw [Crowd.turn, hstep]
    exact Crowd.getElem?_after_self can.here
  refine ⟨_, _, run', ?_, List.mem_filter.2 ⟨List.mem_range.2 ?_, ?_⟩, (permits_bound run').2.1.1⟩
  · rw [Crowd.turn, hstep]
    exact hpermits
  · exact (List.getElem?_eq_some_iff.1 htask).1
  · rw [htask, Option.any_some]
    rfl

end Engine

end Reachability
