import Reachability.Proofs.Engine.Turns
import Reachability.Proofs.Store.Account

set_option autoImplicit false

/-! # The accounts of a crowd

The account of each task is in the hands of one member of the crowd: of the batch that became the
task, and once its result could not be stored at once, of the job that tries again. `Stands` says
how the account stands at each stage; `Kept` says that this holds of the whole crowd, that no two
members have the same account, and that nothing is known of a task whose account nobody has. -/

namespace Reachability.Engine

open StoreService (Visit Moves Publishes Account Creating Updating Unheard)

/-! ## Who has an account, and how it stands -/

/-- How the account of a task stands at each stage of a job: one call was refused before the first
    attempt, and one more with each attempt that failed. -/
def Retry.Stands (policy : RetryPolicy) (s : StoreService) (published : List Log.Entry)
    (task : Task) (result : Results) : Retry → Prop
  | .trying left _ visit => 1 ≤ left ∧ left ≤ policy.attempts ∧
      Updating s published task result (1 + (policy.attempts - left)) visit
  | .pausing left _ _ => 1 ≤ left ∧ left ≤ policy.attempts ∧
      Account s published task result (1 + (policy.attempts - left)) false false
  | .finished => Account s published task result (1 + policy.attempts) false false ∨
      ∃ n, 1 ≤ n ∧ n ≤ policy.attempts ∧ Account s published task result n true true

namespace Activity

/-- The task whose account is in the hands of a member of the crowd. -/
def carries? : Activity → Option TaskId
  | batch (.creating _ visit) => visit.created?
  | batch (.joining task _) => some task.id
  | batch (.updating task _ _) => some task.id
  | batch (.submitting task _) => some task.id
  | batch (.finished (.ok o)) => if o.deferred = true then none else some o.id
  | batch (.crashed task) => some task.id
  | retry job _ => some job.id
  | _ => none

/-- How the account stands that is in the hands of a member of the crowd. -/
def Stands (policy : RetryPolicy) (s : StoreService) (published : List Log.Entry) :
    Activity → Prop
  | batch (.creating _ visit) => Creating s published visit
  | batch (.joining task _) => task.result = .empty ∧
      ∀ result, Account s published task result 0 false false
  | batch (.updating task results visit) => task.result = .empty ∧
      Updating s published task results 0 visit
  | batch (.submitting task results) => task.result = .empty ∧
      Account s published task results 1 false false
  | batch (.finished (.ok o)) => o.deferred = false →
      ∃ task : Task, task.id = o.id ∧ task.result = .empty ∧
        Account s published task o.results 0 true true
  | batch (.crashed task) => task.result = .empty ∧
      ∀ result, Account s published task result 0 false false
  | retry job stage => ∃ task : Task, task.id = job.id ∧ task.result = .empty ∧
      stage.Stands policy s published task job.result
  | _ => True

end Activity

section Stands

variable {policy : RetryPolicy} {s s' : StoreService} {published published' : List Log.Entry}
  {a : Activity}

theorem Retry.Stands.congr {task : Task} {result : Results} {stage : Retry}
    (h : stage.Stands policy s published task result)
    (calls : s'.updatesOf task.id = s.updatesOf task.id)
    (lines : published'.filter (Index.concerns task.id)
      = published.filter (Index.concerns task.id)) :
    stage.Stands policy s' published' task result := by
  cases stage with
  | trying left backoff visit => exact ⟨h.1, h.2.1, h.2.2.congr calls lines⟩
  | pausing left backoff finish => exact ⟨h.1, h.2.1, h.2.2.congr calls lines⟩
  | finished =>
      rcases h with h | ⟨n, hpos, hle, h⟩
      · exact .inl (h.congr calls lines)
      · exact .inr ⟨n, hpos, hle, h.congr calls lines⟩

/-- An account stands as it did if nothing is added to it. -/
theorem Activity.Stands.congr (h : a.Stands policy s published)
    (calls : ∀ id, a.carries? = some id → s'.updatesOf id = s.updatesOf id)
    (lines : ∀ id, a.carries? = some id →
      published'.filter (Index.concerns id) = published.filter (Index.concerns id)) :
    a.Stands policy s' published' := by
  match a with
  | .batch (.creating caller visit) => exact Creating.congr h calls lines
  | .batch (.joining task deadline) =>
      exact ⟨h.1, fun result => (h.2 result).congr (calls _ rfl) (lines _ rfl)⟩
  | .batch (.updating task results visit) =>
      exact ⟨h.1, h.2.congr (calls _ rfl) (lines _ rfl)⟩
  | .batch (.submitting task results) => exact ⟨h.1, h.2.congr (calls _ rfl) (lines _ rfl)⟩
  | .batch (.finished (.ok o)) =>
      intro hnow
      obtain ⟨task, hid, hempty, haccount⟩ := h hnow
      have hcarries : Activity.carries? (.batch (.finished (.ok o))) = some task.id := by
        show (if o.deferred = true then none else some o.id) = _
        rw [hnow, hid]
        rfl
      exact ⟨task, hid, hempty, haccount.congr (calls _ hcarries) (lines _ hcarries)⟩
  | .batch (.crashed task) =>
      exact ⟨h.1, fun result => (h.2 result).congr (calls _ rfl) (lines _ rfl)⟩
  | .retry job stage =>
      obtain ⟨task, hid, hempty, hstands⟩ := h
      have hcarries : Activity.carries? (.retry job stage) = some task.id := congrArg some hid.symm
      exact ⟨task, hid, hempty, hstands.congr (calls _ hcarries) (lines _ hcarries)⟩
  | .batch (.finished (.error _)) => exact trivial
  | .check .. => exact trivial
  | .submission .. => exact trivial
  | .drain _ => exact trivial
  | .worker _ => exact trivial
  | .report _ => exact trivial
  | .probe .. => exact trivial
  | .rest .. => exact trivial

/-- What a member of the crowd is about to add to is the account in its own hands. -/
theorem Activity.Stands.touches (h : a.Stands policy s published) {visit : Visit}
    (visiting : a.visit? = some visit) {id : TaskId} (hne : a.carries? ≠ some id) :
    visit.touches id = false := by
  cases Activity.calls_of_visit? visiting with
  | creating caller => exact Creating.touches h hne
  | updating task results => exact Updating.touches h.2 fun he => hne (congrArg some he.symm)
  | trying job left backoff =>
      obtain ⟨task, hid, hempty, hle, hle', hupdating⟩ := h
      exact hupdating.touches fun he => hne (congrArg some (he ▸ hid.symm))

/-- A line that has been written was written well. -/
theorem Activity.Stands.written (h : a.Stands policy s published) {change : StoreService.Pending}
    {outcome : Except StoreError Unit} (visiting : a.visit? = some (.written change outcome)) :
    outcome = .ok () := by
  cases Activity.calls_of_visit? visiting with
  | creating caller =>
      obtain ⟨task, -, hok, -⟩ := h
      exact hok
  | updating task results => exact h.2.2.1
  | trying job left backoff =>
      obtain ⟨task, hid, hempty, hle, hle', -, hok, -⟩ := h
      exact hok

/-- A batch whose task was created has the task. -/
theorem Activity.Stands.creates (h : a.Stands policy s published) {caller : Option Nat}
    {reply : StoreReply} (ha : a = .batch (.creating caller (.answered (.ok reply)))) :
    ∃ task, reply = .task task := by
  subst ha
  obtain ⟨task, hreply, -⟩ := h
  exact ⟨task, hreply⟩

end Stands

/-! ## What a turn does to an account -/

/-- Whose hands an account is in after a turn: in the same, in those of a member that has just taken
    the next number, or in those of a member that the turn starts. -/
inductive Hands (next next' : TaskId) (a : Activity) : Activity → List Activity → Prop where
  | keeps {a' : Activity} {started : List Activity} (self : a'.carries? = a.carries?)
      (fresh : ∀ b ∈ started, b.carries? = none) (same : next' = next) :
      Hands next next' a a' started
  | opens {a' : Activity} (before : a.carries? = none) (self : a'.carries? = some next)
      (left : next ≠ Index.lastId) (after : next' = Index.idAfter next) :
      Hands next next' a a' []
  | passes {a' b : Activity} {id : TaskId} (before : a.carries? = some id)
      (self : a'.carries? = none) (taken : b.carries? = some id) (same : next' = next) :
      Hands next next' a a' [b]

section Turns

variable {s : Settings} {now : Nat} {key : TaskKey} {w : World} {a : Activity}
  {t : Turn World Activity} {published published' : List Log.Entry}

theorem Plain.service_eq (h : Plain s now key w a t) : t.shared.service = w.service := by
  cases h with
  | reported =>
      simp only [LinkCheck.report]
      split <;> rfl
  | _ => rfl

theorem Plain.hands (h : Plain s now key w a t) (next : TaskId) :
    Hands next next a t.task t.started := by
  have hnone : ∀ b ∈ ([] : List Activity), b.carries? = none := List.forall_mem_nil _
  cases h with
  | launched deadline =>
      refine .keeps rfl (fun b hb => ?_) rfl
      obtain ⟨link, -, rfl⟩ := List.mem_map.1 hb
      rfl
  | submitted ready => exact .passes rfl rfl rfl rfl
  | crashed => exact .keeps rfl hnone rfl
  | rejected => exact .keeps rfl hnone rfl
  | gathered => exact .keeps rfl hnone rfl
  | stored => exact .keeps rfl hnone rfl
  | deferred => exact .keeps rfl hnone rfl
  | succeeded => exact .keeps rfl hnone rfl
  | gaveUp => exact .keeps rfl hnone rfl
  | paused => exact .keeps rfl hnone rfl
  | retried => exact .keeps rfl hnone rfl
  | checked => exact .keeps rfl hnone rfl
  | reported => exact .keeps rfl hnone rfl
  | asked => exact .keeps rfl hnone rfl
  | admitted => exact .keeps rfl hnone rfl
  | drained => exact .keeps rfl hnone rfl
  | worked => exact .keeps rfl hnone rfl

/-- A turn without a call on the store leaves all accounts as they are. -/
theorem Plain.stands (h : Plain s now key w a t) (hstands : a.Stands s.retry w.service published) :
    t.task.Stands s.retry w.service published ∧
      ∀ b ∈ t.started, b.Stands s.retry w.service published := by
  cases h with
  | launched deadline =>
      obtain ⟨task, heq, hempty, haccount⟩ := hstands
      cases heq
      refine ⟨⟨hempty, haccount⟩, fun b hb => ?_⟩
      obtain ⟨link, -, rfl⟩ := List.mem_map.1 hb
      exact trivial
  | crashed late =>
      obtain ⟨task, heq, hempty, haccount⟩ := hstands
      cases heq
      exact ⟨⟨hempty, haccount⟩, List.forall_mem_nil _⟩
  | rejected => exact ⟨trivial, List.forall_mem_nil _⟩
  | gathered joined results => exact ⟨⟨hstands.1, rfl, hstands.2 results⟩, List.forall_mem_nil _⟩
  | @stored task results reply =>
      exact ⟨fun _ => ⟨task, rfl, hstands.1, hstands.2⟩, List.forall_mem_nil _⟩
  | deferred => exact ⟨hstands, List.forall_mem_nil _⟩
  | @submitted task results ready =>
      refine ⟨nofun, fun b hb => ?_⟩
      obtain rfl := List.mem_singleton.1 hb
      have hzero : 1 + (s.retry.attempts - s.retry.attempts) = 1 := by rw [Nat.sub_self]
      refine ⟨task, rfl, hstands.1, Nat.le_max_left .., Nat.le_refl _, rfl, ?_⟩
      rw [hzero]
      exact hstands.2
  | @succeeded job left backoff reply settled =>
      obtain ⟨task, hid, hempty, hpos, hle, haccount⟩ := hstands
      exact ⟨⟨task, hid, hempty, .inr ⟨_, Nat.le_add_right .., by omega, haccount⟩⟩,
        List.forall_mem_nil _⟩
  | @gaveUp job left backoff e last settled =>
      obtain ⟨task, hid, hempty, hpos, hle, haccount⟩ := hstands
      have hcount : 1 + (s.retry.attempts - left) + 1 = 1 + s.retry.attempts := by omega
      exact ⟨⟨task, hid, hempty, .inl (hcount ▸ haccount)⟩, List.forall_mem_nil _⟩
  | @paused job left backoff e more =>
      obtain ⟨task, hid, hempty, hpos, hle, haccount⟩ := hstands
      have hcount : 1 + (s.retry.attempts - left) + 1 = 1 + (s.retry.attempts - (left - 1)) := by
        omega
      exact ⟨⟨task, hid, hempty, by omega, by omega, hcount ▸ haccount⟩, List.forall_mem_nil _⟩
  | retried =>
      obtain ⟨task, hid, hempty, hpos, hle, haccount⟩ := hstands
      exact ⟨⟨task, hid, hempty, hpos, hle, hid ▸ rfl, haccount⟩, List.forall_mem_nil _⟩
  | checked going nearer clock => exact ⟨trivial, List.forall_mem_nil _⟩
  | reported going => exact ⟨trivial, List.forall_mem_nil _⟩
  | asked => exact ⟨trivial, List.forall_mem_nil _⟩
  | admitted ready => exact ⟨trivial, List.forall_mem_nil _⟩
  | drained idle => exact ⟨trivial, List.forall_mem_nil _⟩
  | worked kind nearer => exact ⟨trivial, List.forall_mem_nil _⟩

end Turns

/-- A member that goes on with its call on the store keeps the account that it has, or opens one. -/
theorem Activity.Stands.visits {policy : RetryPolicy} {front : StoreFront} {moment : Moment}
    {now : Nat} {key : TaskKey} {s s' : StoreService} {visit visit' : Visit}
    {published published' : List Log.Entry} {a : Activity} (h : a.Stands policy s published)
    (visiting : a.visit? = some visit) (moves : Moves front moment now key s visit s' visit')
    (refuses : front.Refuses) (publishes : Publishes published visit published')
    (tasks : s.store.index.tasks = (Index.ofEntries published).tasks)
    (fresh : Unheard s published s.store.index.nextId)
    (written : ∀ change outcome, visit' = .written change outcome → outcome = .ok ()) :
    (a.withVisit visit').Stands policy s' published' ∧
      Hands s.store.index.nextId s'.store.index.nextId a (a.withVisit visit') [] := by
  cases Activity.calls_of_visit? visiting with
  | creating caller =>
      refine ⟨Creating.step h moves refuses publishes fresh written, ?_⟩
      rcases Creating.created?_cases h moves with ⟨hself, hnext⟩ | ⟨hnone, hself, hleft, hnext⟩
      · exact .keeps hself (List.forall_mem_nil _) hnext
      · exact .opens hnone hself hleft hnext
  | updating task results =>
      exact ⟨⟨h.1, h.2.step moves refuses publishes tasks written⟩,
        .keeps rfl (List.forall_mem_nil _) (h.2.nextId_eq moves)⟩
  | trying job left backoff =>
      obtain ⟨task, hid, hempty, hpos, hle, hupdating⟩ := h
      exact ⟨⟨task, hid, hempty, hpos, hle,
        hupdating.step moves refuses publishes tasks written⟩,
        .keeps rfl (List.forall_mem_nil _) (hupdating.nextId_eq moves)⟩

/-! ## The whole crowd -/

/-- The task whose account is in the hands of the member with a number. -/
def carrier (c : Crowd World Activity) (key : TaskKey) : Option TaskId :=
  c.tasks[key]?.bind Activity.carries?

/-- The accounts of all tasks. -/
structure Kept (policy : RetryPolicy) (c : Crowd World Activity) (published : List Log.Entry) :
    Prop where
  stands : ∀ (key : TaskKey) a, c.tasks[key]? = some a →
    a.Stands policy c.shared.service published
  single : ∀ key key' id, carrier c key = some id → carrier c key' = some id → key = key'
  below : ∀ key id, carrier c key = some id → id < c.shared.service.store.index.nextId
  unheard : ∀ id, (∀ key, carrier c key ≠ some id) → Unheard c.shared.service published id

namespace Kept

variable {policy : RetryPolicy} {c : Crowd World Activity} {published published' : List Log.Entry}
  {key other : TaskKey} {a b : Activity} {t : Turn World Activity} {id : TaskId}

theorem carrier_of_some (h : c.tasks[key]? = some a) : carrier c key = a.carries? := by
  rw [carrier, h, Option.bind_some]

/-- Idle workers have no account in their hands. -/
theorem first {w : World} (quiet : w.service.receipts = []) : Kept policy w.crowd [] := by
  have hnone : ∀ key, carrier w.crowd key = none := w.bind_crowd Activity.carries? rfl
  refine ⟨fun key b hb => ?_, fun key key' id hkey => ?_, fun key id hkey => ?_, fun id _ => ?_⟩
  · rw [World.eq_idle_of_crowd hb]
    exact trivial
  · rw [hnone] at hkey
    cases hkey
  · rw [hnone] at hkey
    cases hkey
  · refine ⟨?_, rfl⟩
    show w.service.updatesOf id = []
    rw [StoreService.updatesOf, quiet]
    rfl

/-- Nothing is known of the number that the next task gets. -/
theorem fresh (h : Kept policy c published) :
    Unheard c.shared.service published c.shared.service.store.index.nextId :=
  h.unheard _ fun key hkey => absurd (h.below key _ hkey) Std.lt_irrefl

/-- Who has an account after a turn had it before, or has the turn, or was started by it. -/
theorem carrier_after (hkey : c.tasks[key]? = some a)
    (h : carrier (c.after key t) other = some id) :
    (other = key ∧ t.task.carries? = some id) ∨ (other ≠ key ∧ carrier c other = some id) ∨
      ∃ i b, other = c.tasks.length + i ∧ t.started[i]? = some b ∧ b.carries? = some id := by
  obtain ⟨b, hb, hcarries⟩ := Option.bind_eq_some_iff.1 h
  rcases Crowd.getElem?_after hkey hb with ⟨rfl, rfl⟩ | ⟨hne, hold⟩ | ⟨i, hi, hnew⟩
  · exact .inl ⟨rfl, hcarries⟩
  · exact .inr (.inl ⟨hne, (carrier_of_some hold).trans hcarries⟩)
  · exact .inr (.inr ⟨i, b, hi, hnew, hcarries⟩)

theorem carrier_after_of_ne (hne : other ≠ key) (h : carrier c other = some id) :
    carrier (c.after key t) other = some id := by
  obtain ⟨b, hb, hcarries⟩ := Option.bind_eq_some_iff.1 h
  rw [carrier_of_some (Crowd.getElem?_after_of_ne hne hb), hcarries]

/-- If one account moves to a member whose number may be new, and all others stay where they are,
    then no two members have the same account. -/
theorem single_of_moved (h : Kept policy c published) {carries : TaskKey → Option TaskId}
    {place : TaskKey} {mine : TaskId}
    (hcarries : ∀ k id, carries k = some id →
      (k = place ∧ id = mine) ∨ (k ≠ key ∧ carrier c k = some id))
    (hmine : ∀ k, k ≠ key → carrier c k ≠ some mine) (k k' : TaskKey) (id : TaskId)
    (hk : carries k = some id) (hk' : carries k' = some id) : k = k' := by
  rcases hcarries k id hk with ⟨rfl, rfl⟩ | ⟨hne, hold⟩
  · rcases hcarries k' _ hk' with ⟨rfl, -⟩ | ⟨hne', hold'⟩
    · rfl
    · exact absurd hold' (hmine k' hne')
  · rcases hcarries k' id hk' with ⟨-, rfl⟩ | ⟨-, hold'⟩
    · exact absurd hold (hmine k hne)
    · exact h.single k k' id hold hold'

/-- After a turn no two members have the same account, only numbers that were given have one, and
    no account is lost. -/
theorem carriers_after {next' : TaskId} (h : Kept policy c published)
    (hkey : c.tasks[key]? = some a)
    (hands : Hands c.shared.service.store.index.nextId next' a t.task t.started) :
    (∀ k k' id, carrier (c.after key t) k = some id → carrier (c.after key t) k' = some id →
      k = k') ∧
    (∀ k id, carrier (c.after key t) k = some id → id < next') ∧
    ∀ k id, carrier c k = some id → ∃ k', carrier (c.after key t) k' = some id := by
  obtain ⟨w, a', started⟩ := t
  cases hands with
  | keeps self fresh same =>
      have hsame := Crowd.bind_after (t := ⟨w, a', started⟩) Activity.carries? hkey self fresh
      refine ⟨fun k k' id hk hk' => ?_, fun k id hk => ?_, fun k id hk => ⟨k, ?_⟩⟩
      · exact h.single k k' id ((hsame k).symm.trans hk) ((hsame k').symm.trans hk')
      · rw [same]
        exact h.below k id ((hsame k).symm.trans hk)
      · exact (hsame k).trans hk
  | opens before self left after =>
      -- The number was in nobody's hands: all that are lie below it.
      have hcases : ∀ k id, carrier (c.after key ⟨w, a', []⟩) k = some id →
          (k = key ∧ id = c.shared.service.store.index.nextId) ∨
            (k ≠ key ∧ carrier c k = some id) := by
        intro k id hk
        rcases carrier_after hkey hk with ⟨rfl, hid⟩ | hold | ⟨i, b, -, hb, -⟩
        · exact .inl ⟨rfl, Option.some.inj (hid.symm.trans self)⟩
        · exact .inr hold
        · cases hb
      refine ⟨h.single_of_moved hcases fun k _ hk => absurd (h.below k _ hk) Std.lt_irrefl,
        fun k id hk => ?_, fun k id hk => ⟨k, ?_⟩⟩
      · have hle : id ≤ c.shared.service.store.index.nextId := by
          rcases hcases k id hk with ⟨-, rfl⟩ | ⟨-, hold⟩
          · exact Std.le_refl _
          · exact Std.le_of_lt (h.below k id hold)
        rw [after]
        refine (Index.lt_idAfter_iff fun hlast => left ?_).2 hle
        exact Index.eq_lastId_of_le (hlast ▸ hle)
      · refine carrier_after_of_ne ?_ hk
        rintro rfl
        rw [carrier_of_some hkey, before] at hk
        cases hk
  | @passes b mine before self taken same =>
      -- The account goes to the member that was just started, the last one.
      have hcases : ∀ k id, carrier (c.after key ⟨w, a', [b]⟩) k = some id →
          (k = c.tasks.length ∧ id = mine) ∨ (k ≠ key ∧ carrier c k = some id) := by
        intro k id hk
        rcases carrier_after hkey hk with ⟨rfl, hid⟩ | hold | ⟨i, b', rfl, hb, hid⟩
        · exact absurd (hid.symm.trans self) nofun
        · exact .inr hold
        · cases i with
          | zero =>
              obtain rfl : b = b' := Option.some.inj hb
              exact .inl ⟨rfl, Option.some.inj (hid.symm.trans taken)⟩
          | succ i => cases hb
      have hmine : carrier c key = some mine := (carrier_of_some hkey).trans before
      refine ⟨h.single_of_moved hcases fun k hne hk => hne (h.single k key _ hk hmine),
        fun k id hk => ?_, fun k id hk => ?_⟩
      · rw [same]
        rcases hcases k id hk with ⟨-, rfl⟩ | ⟨-, hold⟩
        · exact h.below key _ hmine
        · exact h.below k id hold
      · by_cases hne : k = key
        · subst hne
          refine ⟨c.tasks.length, ?_⟩
          have hnew : (c.after k ⟨w, a', [b]⟩).tasks[c.tasks.length]? = some b :=
            Crowd.getElem?_after_started 0
          rw [carrier_of_some hnew, taken, ← hmine, hk]
        · exact ⟨k, carrier_after_of_ne hne hk⟩

/-- A turn that adds to no other account than to that in the hands of its member keeps all
    accounts. -/
theorem after (h : Kept policy c published) (hkey : c.tasks[key]? = some a)
    (hands : Hands c.shared.service.store.index.nextId t.shared.service.store.index.nextId a t.task
      t.started)
    (self : t.task.Stands policy t.shared.service published')
    (started : ∀ b ∈ t.started, b.Stands policy t.shared.service published')
    (frame : ∀ id, a.carries? ≠ some id →
      t.shared.service.updatesOf id = c.shared.service.updatesOf id ∧
      published'.filter (Index.concerns id) = published.filter (Index.concerns id)) :
    Kept policy (c.after key t) published' := by
  obtain ⟨hsingle, hbelow, hlost⟩ := h.carriers_after hkey hands
  refine ⟨fun k b hb => ?_, hsingle, hbelow, fun id hid => ?_⟩
  · rcases Crowd.getElem?_after hkey hb with ⟨-, rfl⟩ | ⟨hne, hold⟩ | ⟨i, -, hnew⟩
    · exact self
    · -- Its account is not the one that is added to.
      have hother : ∀ id, b.carries? = some id → a.carries? ≠ some id := by
        intro id hcarries hsame
        exact hne (h.single k key id ((carrier_of_some hold).trans hcarries)
          ((carrier_of_some hkey).trans hsame))
      exact (h.stands k b hold).congr (fun id hid => (frame id (hother id hid)).1)
        fun id hid => (frame id (hother id hid)).2
    · exact started b (List.mem_of_getElem? hnew)
  · have hbefore : ∀ k, carrier c k ≠ some id := by
      intro k hk
      obtain ⟨k', hk'⟩ := hlost k id hk
      exact hid k' hk'
    have hself : a.carries? ≠ some id := by
      rw [← carrier_of_some hkey]
      exact hbefore key
    exact (h.unheard id hbefore).congr (frame id hself).1 (frame id hself).2

/-- Who comes with no account in its hands leaves all accounts as they are. -/
theorem call (h : Kept policy c published) (hnone : a.carries? = none)
    (hstands : a.Stands policy c.shared.service published) : Kept policy (c.call a) published := by
  have hsame : ∀ k, carrier (c.call a) k = carrier c k := Crowd.bind_call _ hnone
  refine ⟨fun k b hb => ?_, fun k k' id hk hk' => ?_, fun k id hk => ?_, fun id hid => ?_⟩
  · rcases Crowd.getElem?_call hb with ⟨-, rfl⟩ | hold
    · exact hstands
    · exact h.stands k b hold
  · exact h.single k k' id ((hsame k).symm.trans hk) ((hsame k').symm.trans hk')
  · exact h.below k id ((hsame k).symm.trans hk)
  · exact h.unheard id fun k hk => hid k ((hsame k).trans hk)

end Kept

/-! ## Accounts and books -/

/-- The calls on the store that a crowd is making. -/
def visitors (c : Crowd World Activity) (key : TaskKey) : Option Visit :=
  c.tasks[key]?.bind Activity.visit?

theorem visitors_of_some {c : Crowd World Activity} {key : TaskKey} {a : Activity}
    (h : c.tasks[key]? = some a) : visitors c key = a.visit? := by
  rw [visitors, h, Option.bind_some]

theorem filter_visitors (c : Crowd World Activity) (key : TaskKey) :
    (visitors c key).filter Visit.isInside = c.tasks[key]?.bind Activity.inside? := by
  rw [visitors]
  cases c.tasks[key]? <;> rfl

theorem Plain.inside {s : Settings} {now : Nat} {key : TaskKey} {w : World} {a : Activity}
    {t : Turn World Activity} (h : Plain s now key w a t) :
    t.task.inside? = a.inside? ∧ ∀ b ∈ t.started, b.inside? = none := by
  cases h with
  | launched deadline =>
      refine ⟨rfl, fun b hb => ?_⟩
      obtain ⟨link, -, rfl⟩ := List.mem_map.1 hb
      rfl
  | submitted ready =>
      refine ⟨rfl, fun b hb => ?_⟩
      obtain rfl := List.mem_singleton.1 hb
      rfl
  | _ => exact ⟨rfl, List.forall_mem_nil _⟩

section Kept

variable {log : Log} {d₀ : Disk} {here : Disk.Place} {base : String} {s : Settings}
  {c : Crowd World Activity} {key : TaskKey} {a : Activity} {t : Turn World Activity}
  {published : List Log.Entry}

/-- The books and the accounts after a turn. -/
theorem Turns.kept (turns : Turns s c.now key c.shared a t) (hkey : c.tasks[key]? = some a)
    (site : StoreService.Site log d₀ here base s.moment) (refuses : s.front.Refuses)
    (names : ∀ n < c.shared.service.receipts.length, log.CanName (s.moment c.now).today n)
    (hsound : StoreService.Sound log d₀ here base (s.moment c.now).today c.shared.service
      (visitors c) published)
    (hkept : Kept s.retry c published) :
    ∃ published', StoreService.Sound log d₀ here base (s.moment c.now).today t.shared.service
      (visitors (c.after key t)) published' ∧ Kept s.retry (c.after key t) published' := by
  have hstands := hkept.stands key a hkey
  cases turns with
  | plain h =>
      have hservice := h.service_eq
      refine ⟨published, ?_, ?_⟩
      · rw [hservice]
        refine hsound.congr fun k => ?_
        rw [filter_visitors, filter_visitors,
          Crowd.bind_after Activity.inside? hkey h.inside.1 h.inside.2]
      · obtain ⟨hself, hstarted⟩ := h.stands hstands
        rw [← hservice] at hself hstarted
        refine hkept.after hkey (hservice ▸ h.hands _) hself hstarted fun id _ => ?_
        rw [hservice]
        exact ⟨rfl, rfl⟩
  | @visits visit visit' service visiting going ready moves =>
      have hvisit : visitors c key = some visit := (visitors_of_some hkey).trans visiting
      have hself : visitors (c.after key ⟨{ c.shared with service }, a.withVisit visit', []⟩) key
          = some visit' :=
        (visitors_of_some (Crowd.getElem?_after_self hkey)).trans
          (Activity.visit?_withVisit visiting visit')
      have hothers : ∀ other, other ≠ key →
          visitors (c.after key ⟨{ c.shared with service }, a.withVisit visit', []⟩) other
            = visitors c other := by
        intro other hne
        rw [visitors, Crowd.getElem?_after_alone hne rfl, visitors]
      have hwell : ∀ change outcome, visit = .written change outcome → outcome = .ok () :=
        fun change outcome he => hstands.written (he ▸ visiting)
      obtain ⟨hwritten, published', hpublishes, hsound'⟩ := hsound.step site names moves hvisit
        (hsound.guarded.holds_of_isInside hvisit ready) hwell hself hothers
      obtain ⟨l, ahead, hbooks, -⟩ := hsound.books
      obtain ⟨hstands', hhands⟩ := hstands.visits visiting moves refuses hpublishes hbooks.tasks
        hkept.fresh hwritten
      refine ⟨published', hsound', hkept.after hkey hhands hstands' (List.forall_mem_nil _)
        fun id hid => ?_⟩
      exact moves.frame hpublishes (hstands.touches visiting hid)

end Kept

end Reachability.Engine
