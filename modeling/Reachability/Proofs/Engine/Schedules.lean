import Reachability.Proofs.Engine.Turns

set_option autoImplicit false

/-! # What the engine does is a run

The engine runs its tasks by `Schedule.run`. It is a regular process (`regular_process`): nobody
waits for a time that has come, and no task starts one that is at its end. So checking a batch and
waiting for all jobs are runs of its crowd, in which time passes only when nobody can go on
(`mirrors_check`, `mirrors_drain`). -/

namespace Reachability.Engine

open StoreService (Visit)

section Mirrors

variable {s : Settings} {now : Nat} {key : TaskKey} {w : World} {t : Nat}

/-- Who waits unless its time has come does not wait for a time that has. -/
theorem due_of_unless {p : Prop} [Decidable p] {finish : Option Nat}
    (h : (if p then Wait.nothing else .change finish) = .change (some t))
    (hp : ∀ due, finish = some due → due ≤ now → p) : now ≤ t := by
  split at h
  · cases h
  · next hnot =>
    cases h
    exact Nat.le_of_not_le fun hle => hnot (hp t rfl hle)

theorem due_of_visit {service : StoreService} {visit : Visit}
    (h : visit.wait now key service = .change (some t)) : now ≤ t := by
  cases visit with
  | delayed answer finish =>
      refine due_of_unless h fun due hdue hle => ?_
      rw [hdue, Option.any_some, decide_eq_true hle]
  | inLine call => exact due_of_unless h nofun
  | arriving call => cases h
  | writing change => cases h
  | written change outcome => cases h
  | answered answer => cases h

theorem due_of_probe {deadline : Nat} {stage : Probe.Stage}
    (h : stage.wait now deadline = .change (some t)) : now ≤ t := by
  rcases stage.wait_cases now deadline with hnothing | ⟨finish, hwait⟩
  · rw [hnothing] at h
    cases h
  · rw [hwait] at h
    obtain ⟨-, due, hdue, hlt, -⟩ := Probe.waitUntil_eq_change h
    cases hdue
    exact Nat.le_of_lt hlt

theorem due_of_check {parent : TaskKey} {deadline : Nat} {stage : LinkCheck}
    (h : Activity.wait now key w (.check parent deadline stage) = .change (some t)) : now ≤ t := by
  cases stage with
  | inLine link =>
      refine due_of_unless h fun due hdue hle => ?_
      obtain rfl : deadline = due := Option.some.inj hdue
      rw [decide_eq_true hle, Bool.or_true]
  | probing link stage => exact due_of_probe h
  | fresh link => cases h
  | finished link status => cases h

theorem due_of_report {stage : ReportCall}
    (h : Activity.wait now key w (.report stage) = .change (some t)) : now ≤ t := by
  cases stage with
  | fresh ids start limit =>
      exact due_of_unless h fun due hdue hle => Option.some.inj hdue ▸ hle
  | inLine ids deadline =>
      refine due_of_unless h fun due hdue hle => ?_
      obtain rfl : deadline = due := Option.some.inj hdue
      rw [decide_eq_true hle, Bool.or_true]
  | listening deadline =>
      refine due_of_unless h fun due hdue hle => ?_
      obtain rfl : deadline = due := Option.some.inj hdue
      rw [decide_eq_true hle, Bool.or_true]
  | finished answer time => cases h

/-- Nobody waits for a time that has come. -/
theorem due_of_wait {a : Activity} (h : a.wait now key w = .change (some t)) : now ≤ t := by
  match a with
  | .check .. => exact due_of_check h
  | .batch (.creating ..) => exact due_of_visit h
  | .batch (.updating ..) => exact due_of_visit h
  | .batch (.joining ..) => exact due_of_unless h nofun
  | .batch (.submitting ..) => exact due_of_unless h nofun
  | .retry _ (.trying ..) => exact due_of_visit h
  | .retry _ (.pausing _ _ finish) =>
      exact due_of_unless h fun due hdue hle => Probe.hasCome_iff.2 ⟨due, hdue, hle⟩
  | .submission _ .inLine => exact due_of_unless h nofun
  | .drain .inLine => exact due_of_unless h nofun
  | .drain .waiting => exact due_of_unless h nofun
  | .worker .inLine => exact due_of_unless h nofun
  | .worker .listening =>
      simp only [Activity.wait, ReportWorker.wait] at h
      split at h <;> cases h
  | .worker (.loading ..) => exact due_of_visit h
  | .report _ => exact due_of_report h
  | .probe .. => exact due_of_probe h
  | .rest stop _ => exact due_of_unless h fun due hdue hle => Option.some.inj hdue ▸ hle

/-- No task starts one that is at its end. -/
theorem isFinished_of_started {a b : Activity}
    (h : b ∈ (a.step s now key w).started) : b.isFinished = false := by
  cases a with
  | batch stage =>
      rcases List.mem_append.1 h with h | h
      · obtain ⟨⟨link, deadline⟩, -, rfl⟩ := List.mem_map.1 h
        rfl
      · obtain ⟨⟨id, result⟩, -, rfl⟩ := List.mem_map.1 h
        rfl
  | submission job stage =>
      cases stage with
      | inLine => exact List.mem_singleton.1 h ▸ rfl
      | fresh => cases h
      | finished => cases h
  | _ => cases h

theorem regular_process (s : Settings) : (process s).Regular where
  due _ _ _ _ _ h := due_of_wait h
  started _ _ _ _ _ _ h := isFinished_of_started h

/-- The engine starts as its crowd does. -/
theorem mirrors_initial (s : Settings) (w : World) :
    Schedule.Mirrors (process s) (Run.initial w) w.crowd := by
  have hnone : ∀ (key : TaskKey) (a : Activity), ([] : List Activity)[key]? = some a → False := by
    intro key a h
    rw [List.getElem?_nil] at h
    cases h
  have hidle : Schedule.Mirrors (process s) (Schedule.idle w) ⟨0, w, []⟩ :=
    ⟨rfl, rfl, rfl, List.forall_mem_nil _, fun key a h => (hnone key a h).elim,
      List.forall_mem_nil _⟩
  exact hidle.add _ fun b hb => List.eq_of_mem_replicate hb ▸ rfl

variable {r : Run} {c : Crowd World Activity}

/-- The check of a batch is a run of the crowd, and its answer is that of the batch. -/
theorem mirrors_check (h : Schedule.Mirrors (process s) r c) (links : List String)
    (deadline : Option Nat) : ∃ n c',
      Crowd.Run (process s) (Crowd.Urgent (process s)) Crowd.noCall
        (c.call (.batch (.start links deadline))) n c' ∧
      Schedule.Mirrors (process s) (r.check s links deadline).2 c' ∧
      ∀ answer, (r.check s links deadline).1 = some answer →
        c'.tasks[c.tasks.length]? = some (.batch (.finished answer)) := by
  obtain ⟨n, c', hrun, hmirrors, hanswer⟩ :=
    h.perform (regular_process s) (.batch (.start links deadline)) rfl
  refine ⟨n, c', hrun, hmirrors, fun answer h => ?_⟩
  simp only [Run.check, Run.perform] at h
  split at h
  · next htask =>
    cases h
    exact (hanswer _ htask).1
  · cases h

/-- To wait for all jobs is a run of the crowd. -/
theorem mirrors_drain (h : Schedule.Mirrors (process s) r c) : ∃ n c',
    Crowd.Run (process s) (Crowd.Urgent (process s)) Crowd.noCall (c.call (.drain .fresh)) n c' ∧
      Schedule.Mirrors (process s) (r.drain s) c' := by
  obtain ⟨n, c', hrun, hmirrors, -⟩ := h.perform (regular_process s) (.drain .fresh) rfl
  exact ⟨n, c', hrun, hmirrors⟩

end Mirrors

end Reachability.Engine
