import Reachability.Proofs.Engine.Accounts
import Reachability.Proofs.Engine.Order

set_option autoImplicit false

/-! # Runs of batches

However the members of a crowd take their turns and callers come: the books of the store, the
accounts of the tasks and the order among the members stay right (`faithful`), as long as the log
can name a segment for each call that the store has received. -/

namespace Reachability.Engine

open StoreService (Visit Moves Site Sound Publishes)

/-- For each call that the store has received the log can name a segment, on any day. -/
def Roomy (log : Log) (s : Settings) (c : Crowd World Activity) : Prop :=
  ∀ t, ∀ n < c.shared.service.receipts.length, log.CanName (s.moment t).today n

/-- The books, the accounts and the order in a crowd, with the published entries. -/
structure Faithful (log : Log) (d₀ : Disk) (here : Disk.Place) (base : String) (s : Settings)
    (c : Crowd World Activity) (published : List Log.Entry) : Prop where
  sound : Sound log d₀ here base (s.moment c.now).today c.shared.service (visitors c) published
  kept : Kept s.retry c published
  ordered : Ordered c

/-! ## Calls that the store has received -/

section Receipts

variable {s : Settings} {now : Nat} {key : TaskKey} {w : World} {a : Activity}

theorem service_report (parent : TaskKey) (link : String) (status : LinkStatus) (w : World) :
    (LinkCheck.report parent link status w).service = w.service := by
  unfold LinkCheck.report
  split <;> rfl

/-- What a task does leaves the service as it was, or goes on with a call. -/
def Goes (s : Settings) (now : Nat) (key : TaskKey) (w : World) (t : Turn World Activity) : Prop :=
  t.shared.service = w.service ∨ ∃ visit,
    t.shared.service = (w.service.step s.front (s.moment now) now key visit).1

theorem goes_of_visit {visit : Visit} (visiting : a.visit? = some visit)
    (going : visit.isAnswered = false) : Goes s now key w (a.step s now key w) := by
  rw [step_of_visit visiting going]
  exact .inr ⟨visit, rfl⟩

theorem goes_check (parent : TaskKey) (deadline : Nat) (stage : LinkCheck) :
    Goes s now key w (Activity.step s now key w (.check parent deadline stage)) := by
  left
  cases stage with
  | fresh link => rfl
  | inLine link =>
      simp only [Activity.step, LinkCheck.step]
      split
      · rfl
      · exact service_report ..
  | probing link stage =>
      simp only [Activity.step, LinkCheck.step]
      split
      · exact service_report ..
      · rfl
  | finished link status => rfl

theorem goes_batch (stage : BatchCall) :
    Goes s now key w (Activity.step s now key w (.batch stage)) := by
  cases stage with
  | creating caller visit =>
      cases visit with
      | answered answer =>
          cases answer with
          | ok reply =>
              left
              cases reply with
              | task task =>
                  cases hd : BatchCall.deadline? s now caller with
                  | some d => rw [Activity.step_launch task hd]
                  | none => rw [Activity.step_crash task hd]
              | _ => rfl
          | error e => exact .inl rfl
      | _ => exact goes_of_visit rfl rfl
  | updating task results visit =>
      cases visit with
      | answered answer => cases answer <;> exact .inl rfl
      | _ => exact goes_of_visit rfl rfl
  | joining task deadline => exact .inl rfl
  | submitting task results => exact .inl rfl
  | finished answer => exact .inl rfl
  | crashed task => exact .inl rfl

theorem goes_retry (job : RetryJob) (stage : Retry) :
    Goes s now key w (Activity.step s now key w (.retry job stage)) := by
  cases stage with
  | trying left backoff visit =>
      cases visit with
      | answered answer =>
          cases answer with
          | ok reply => exact .inl rfl
          | error e =>
              left
              simp only [Activity.step, Retry.step, Retry.afterFailure]
              split <;> rfl
      | _ => exact goes_of_visit rfl rfl
  | pausing left backoff finish => exact .inl rfl
  | finished => exact .inl rfl

theorem goes_worker (stage : ReportWorker) :
    Goes s now key w (Activity.step s now key w (.worker stage)) := by
  have hrender : ∀ job tasks,
      (ReportWorker.render s now w job tasks).1.service = w.service := by
    intro job tasks
    unfold ReportWorker.render
    split
    · rfl
    · split <;> rfl
  cases stage with
  | listening =>
      left
      simp only [Activity.step, ReportWorker.step, ReportWorker.take]
      split
      · rfl
      · split <;> rfl
  | loading job visit =>
      cases visit with
      | answered answer =>
          cases answer with
          | ok reply => cases reply <;> exact .inl (hrender job _)
          | error e => exact .inl rfl
      | arriving call => exact .inr ⟨.arriving call, rfl⟩
      | delayed answer finish => exact .inr ⟨.delayed answer finish, rfl⟩
      | inLine call => exact .inr ⟨.inLine call, rfl⟩
      | writing change => exact .inr ⟨.writing change, rfl⟩
      | written change outcome => exact .inr ⟨.written change outcome, rfl⟩
  | idle => exact .inl rfl
  | inLine => exact .inl rfl
  | crashed => exact .inl rfl

theorem goes_report (stage : ReportCall) :
    Goes s now key w (Activity.step s now key w (.report stage)) := by
  left
  cases stage with
  | fresh ids start limit =>
      simp only [Activity.step, ReportCall.step]
      split <;> rfl
  | inLine ids deadline =>
      simp only [Activity.step, ReportCall.step]
      split
      · rfl
      · split <;> rfl
  | listening deadline =>
      simp only [Activity.step, ReportCall.step]
      split <;> rfl
  | finished answer time => rfl

/-- Whatever a task does, the store forgets no call. -/
theorem length_receipts_le_step (a : Activity) : w.service.receipts.length
    ≤ (a.step s now key w).shared.service.receipts.length := by
  have hgoes : Goes s now key w (a.step s now key w) := by
    cases a with
    | check parent deadline stage => exact goes_check parent deadline stage
    | batch stage => exact goes_batch stage
    | retry job stage => exact goes_retry job stage
    | submission job stage => cases stage <;> exact .inl rfl
    | drain stage => cases stage <;> exact .inl rfl
    | worker stage => exact goes_worker stage
    | report stage => exact goes_report stage
    | probe deadline stage => exact .inl rfl
    | rest stop isOver => exact .inl rfl
  rcases hgoes with h | ⟨visit, h⟩
  · rw [h]
  · rw [h]
    exact (StoreService.moves_step ..).length_receipts_le

end Receipts

/-! ## What stays right -/

section Faithful

variable {log : Log} {d₀ : Disk} {here : Disk.Place} {base : String} {s : Settings}
  {c : Crowd World Activity} {key : TaskKey} {a : Activity} {published : List Log.Entry}

theorem Roomy.of_le {c' : Crowd World Activity} (h : Roomy log s c')
    (hle : c.shared.service.receipts.length ≤ c'.shared.service.receipts.length) :
    Roomy log s c := fun t n hn => h t n (Nat.lt_of_lt_of_le hn hle)

namespace Faithful

/-- What a member of the crowd does when it can go on. -/
theorem turns (h : Faithful log d₀ here base s c published) (can : c.CanGo (process s) key a) :
    Turns s c.now key c.shared a (a.step s c.now key c.shared) :=
  turns_of_canGo can (h.ordered.kinds key a can.here) h.ordered.quiet fun _ _ ha =>
    (h.kept.stands key a can.here).creates ha

theorem turn (h : Faithful log d₀ here base s c published)
    (site : Site log d₀ here base s.moment) (refuses : s.front.Refuses) (room : Roomy log s c)
    (can : c.CanGo (process s) key a) :
    ∃ published', Faithful log d₀ here base s (c.turn (process s) key a) published' := by
  have hturns := h.turns can
  obtain ⟨published', hsound, hkept⟩ :=
    hturns.kept can.here site refuses (room c.now) h.sound h.kept
  exact ⟨published', hsound, hkept, h.ordered.after hturns can.here⟩

theorem await (h : Faithful log d₀ here base s c published)
    (site : Site log d₀ here base s.moment) {later : Nat} (hle : c.now ≤ later) :
    Faithful log d₀ here base s (c.await later) published where
  sound := h.sound.mono (site.forward _ _ hle)
  kept := ⟨h.kept.stands, h.kept.single, h.kept.below, h.kept.unheard⟩
  ordered := ⟨h.ordered.kinds, h.ordered.quiet, h.ordered.lock, h.ordered.running,
    h.ordered.joining, h.ordered.parents, h.ordered.origins, h.ordered.jobs⟩

theorem call (h : Faithful log d₀ here base s c published) (hasked : Asked a) :
    Faithful log d₀ here base s (c.call a) published where
  sound := h.sound.congr fun k => by
    rw [filter_visitors, filter_visitors, Crowd.bind_call _ (by cases hasked <;> rfl)]
  kept := by
    cases hasked with
    | check links deadline => exact h.kept.call rfl ⟨links, rfl⟩
    | wait => exact h.kept.call rfl trivial
  ordered := h.ordered.call hasked

/-- The engine starts with everything in order on a store that has just been opened. -/
theorem first (site : Site log d₀ here base s.moment) {clock : ClockKind} {store : Store}
    {disk : Disk} {workers reportWorkers : Nat} {sec : Int}
    (opened : (Store.opened log).run.run sec d₀ = (.ok store, disk)) :
    Faithful log d₀ here base s
      (World.initial clock (.ofStore store disk) workers reportWorkers).crowd [] := by
  have hempty : log.Holds d₀ here base d₀ Log.Ledger.empty.shelf := site.begins.holds_empty
  rw [Store.run_opened site.begins hempty .nil (List.forall_mem_nil _) sec] at opened
  cases opened
  exact
    { sound := .first site (World.bind_crowd _ Activity.visit? rfl)
      kept := .first rfl
      ordered := .first rfl rfl }

end Faithful

/-- However the members of the crowd take their turns and callers come, the books, the accounts and
    the order stay right. -/
theorem faithful {pace : Crowd World Activity → Nat → Prop} {n : Nat}
    {first : Crowd World Activity} (site : Site log d₀ here base s.moment)
    (refuses : s.front.Refuses) (start : Faithful log d₀ here base s first published)
    (run : Crowd.Run (process s) pace Asked first n c) (room : Roomy log s c) :
    ∃ published, Faithful log d₀ here base s c published := by
  -- The room is that of the last crowd: the store has received no fewer calls than in any before.
  induction run with
  | begin => exact ⟨published, start⟩
  | turn run can ih =>
      have hroom := room.of_le (length_receipts_le_step _)
      obtain ⟨published, h⟩ := ih hroom
      exact h.turn site refuses hroom can
  | await run le may ih =>
      obtain ⟨published, h⟩ := ih room
      exact ⟨published, h.await site le⟩
  | call run may ih =>
      obtain ⟨published, h⟩ := ih room
      exact ⟨published, h.call may⟩

end Faithful

end Reachability.Engine
