import Reachability.Proofs.Engine.Merging
import Reachability.Proofs.Engine.Veil

set_option autoImplicit false

/-! # What the store lists

A task keeps the links that were submitted with it: results change nothing about them, and a new
task has a number of its own (`Faithful.has_turn`). So when a batch has its answer, the store has
its task with just the links that its caller submitted, in that order, and each of them has a status
in the answer (`listed_of_trail`). -/

namespace Reachability

namespace StoreService

/-- The store has a task with the given links. -/
def Has (s : StoreService) (id : TaskId) (links : List String) : Prop :=
  ∃ task, s.store.index.tasks.get? id = some task ∧ task.links = links

section Has

variable {front : StoreFront} {moment : Moment} {now : Nat} {key : TaskKey}
  {s s' : StoreService} {visit visit' : Visit} {id : TaskId} {links : List String}

theorem Has.congr (h : Has s id links) (store : s'.store = s.store) : Has s' id links := by
  rw [Has, store]
  exact h

/-- A task keeps its links, unless another one is created in its place. -/
theorem Moves.has (moves : Moves front moment now key s visit s' visit')
    (fresh : ∀ task outcome, visit = .written (.create task) outcome →
      s.store.index.tasks.get? task.id = none)
    (h : Has s id links) : Has s' id links := by
  obtain ⟨task, htask, hlinks⟩ := h
  cases moves with
  | @settled change =>
      cases change with
      | create new =>
          have hne : id ≠ new.id := by
            rintro rfl
            rw [fresh new _ rfl] at htask
            cases htask
          refine ⟨task, ?_, hlinks⟩
          show (s.store.index.tasks.insert new.id new).get? id = some task
          rw [Table.get?_insert, if_neg hne]
          exact htask
      | update other result =>
          show ∃ task, (Index.setResult s.store.index.tasks other result).get? id = some task ∧ _
          rw [Index.get?_setResult]
          split
          · next hsame =>
            rw [← hsame, htask]
            exact ⟨_, rfl, hlinks⟩
          · exact ⟨task, htask, hlinks⟩
  | _ => exact ⟨task, htask, hlinks⟩

end Has

end StoreService

namespace Engine

open StoreService (Visit Site Account Has)

/-! ## Tasks keep their links -/

section Faithful

variable {log : Log} {d₀ : Disk} {here : Disk.Place} {base : String} {s : Settings}
  {c : Crowd World Activity} {key : TaskKey} {a : Activity} {t : Turn World Activity}
  {published : List Log.Entry} {id : TaskId} {links : List String}

namespace Faithful

theorem tasks_eq (h : Faithful log d₀ here base s c published) :
    c.shared.service.store.index.tasks = (Index.ofEntries published).tasks := by
  obtain ⟨l, ahead, hbooks, -⟩ := h.sound.books
  exact hbooks.tasks

/-- The store does not have a task of which nothing is known. -/
theorem get?_of_unheard (h : Faithful log d₀ here base s c published)
    (unheard : StoreService.Unheard c.shared.service published id) :
    c.shared.service.store.index.tasks.get? id = none := by
  rw [h.tasks_eq, Index.get?_ofEntries, unheard.lines]
  rfl

theorem has_of_account (h : Faithful log d₀ here base s c published) {task : Task}
    {result : Results} {n : Nat} {through stored : Bool}
    (account : Account c.shared.service published task result n through stored) :
    Has c.shared.service task.id task.links := by
  refine ⟨_, (congrArg (·.get? task.id) h.tasks_eq).trans account.get?, ?_⟩
  split <;> rfl

/-- A task that is about to be created is not there yet. -/
theorem get?_of_written (h : Faithful log d₀ here base s c published)
    (hkey : c.tasks[key]? = some a) {task : Task} {outcome : Except StoreError Unit}
    (visiting : a.visit? = some (.written (.create task) outcome)) :
    c.shared.service.store.index.tasks.get? task.id = none := by
  have hstands := h.kept.stands key a hkey
  cases Activity.calls_of_visit? visiting with
  | creating caller =>
      obtain ⟨new, hnew, -, -, hunheard⟩ := hstands
      cases hnew
      exact h.get?_of_unheard hunheard
  | updating task results => cases hstands.2.1
  | trying job left backoff =>
      obtain ⟨task, -, -, -, -, hchange, -⟩ := hstands
      cases hchange

theorem has_turn (h : Faithful log d₀ here base s c published)
    (turns : Turns s c.now key c.shared a t) (hkey : c.tasks[key]? = some a)
    (has : Has c.shared.service id links) : Has t.shared.service id links := by
  cases turns with
  | visits visiting going ready moves =>
      exact moves.has (fun task outcome hvisit => h.get?_of_written hkey (hvisit ▸ visiting)) has
  | plain h => exact has.congr (congrArg StoreService.store h.service_eq)

end Faithful

theorem Veiled.has_turn (h : Veiled log d₀ here base s c)
    (renders : ∀ tasks, s.render tasks ≠ .crash) (can : c.CanGo (process s) key a)
    (has : Has c.shared.service id links) :
    Has (c.turn (process s) key a).shared.service id links := by
  have attends := attends_of_canGo renders h.attended.isOpen can
  cases hreporting : a.isReporting with
  | true =>
      obtain ⟨service, hreads, hservice, -⟩ := veil_reports attends can.here hreporting
        fun job visit ha => h.reading key job visit (ha ▸ can.here)
      exact has.congr (hservice ▸ hreads.store)
  | false =>
      obtain ⟨published, hfaithful⟩ := h.faithful
      have hcan := canGo_veil can hreporting
      have hturn : Has ((veil c).turn (process s) key a).shared.service id links :=
        hfaithful.has_turn (hfaithful.turns hcan) hcan.here has
      rw [← veil_turn attends hreporting] at hturn
      exact hturn

end Faithful

/-! ## The task of a batch -/

/-- Each of the given links has a status. -/
def Rates (results : Results) (links : List String) : Prop :=
  ∀ link ∈ links, ∃ status, results.get? link = some status

/-- A batch goes on to become a task with the given links, or has become one. -/
def BatchCall.Lists (service : StoreService) (links : List String) : BatchCall → Prop
  | .creating _ visit => visit.Creates links
  | .joining task _ => task.links = links
  | .updating task results _ => task.links = links ∧ Rates results links
  | .submitting task results => task.links = links ∧ Rates results links
  | .finished (.ok o) => Has service o.id links ∧ Rates o.results links
  | .finished (.error _) => True
  | .crashed task => task.links = links

/-- A batch in a crowd goes on to become such a task, or has become one. -/
def Listed (c : Crowd World Activity) (key : TaskKey) (links : List String) : Prop :=
  ∃ stage, c.tasks[key]? = some (.batch stage) ∧ stage.Lists c.shared.service links

/-- What is submitted in a turn, and by whom. -/
def submission? (d : Deed World Activity) : Option (TaskKey × List String) :=
  match d.task with
  | .batch (.creating _ (.arriving (.create links))) => some (d.key, links)
  | _ => none

/-- The links that callers have submitted. -/
def submissions (deeds : List (Deed World Activity)) : List (TaskKey × List String) :=
  deeds.filterMap submission?

section Listed

variable {log : Log} {d₀ : Disk} {here : Disk.Place} {base : String} {s : Settings} {now : Nat}
  {w : World} {c : Crowd World Activity} {key other : TaskKey} {a : Activity}
  {links : List String} {service service' : StoreService}

theorem rates_completed (links : List String) (found : Results) :
    Rates (BatchCall.completed links found) links := by
  intro link hlink
  rw [BatchCall.get?_completed, if_pos hlink]
  cases found.get? link with
  | some status => exact ⟨status, rfl⟩
  | none => exact ⟨_, rfl⟩

theorem BatchCall.Lists.congr {stage : BatchCall} (h : stage.Lists service links)
    (keeps : ∀ id, Has service id links → Has service' id links) : stage.Lists service' links := by
  cases stage with
  | finished answer =>
      cases answer with
      | ok o => exact ⟨keeps o.id h.1, h.2⟩
      | error e => exact trivial
  | _ => exact h

/-- A turn of the batch itself: when it ends, the store has its task. -/
theorem Veiled.lists_step (h : Veiled log d₀ here base s c) {stage : BatchCall}
    (hkey : c.tasks[key]? = some (.batch stage)) (refuses : s.front.Refuses)
    (lists : stage.Lists c.shared.service links) :
    (stage.step s c.now key c.shared).call.Lists
      (stage.step s c.now key c.shared).world.service links := by
  obtain ⟨published, hfaithful⟩ := h.faithful
  have hstands := hfaithful.kept.stands key _ (getElem?_veil hkey)
  cases stage with
  | creating caller visit =>
      have hmoves := StoreService.moves_step s.front (s.moment c.now) c.now key c.shared.service
        visit
      have hnext := hmoves.creates refuses lists
      cases visit with
      | answered answer =>
          rcases lists with ⟨e, rfl⟩ | ⟨task, rfl, hlinks⟩
          · exact trivial
          · cases hd : BatchCall.deadline? s c.now caller with
            | some d =>
                rw [BatchCall.step, BatchCall.launch_of_some hd]
                exact hlinks
            | none =>
                rw [BatchCall.step, BatchCall.launch_of_none hd]
                exact hlinks
      | _ => exact hnext
  | joining task deadline =>
      obtain rfl : task.links = links := lists
      exact ⟨rfl, rates_completed _ _⟩
  | updating task results visit =>
      cases visit with
      | answered answer =>
          cases answer with
          | ok reply =>
              obtain ⟨rfl, hrates⟩ := lists
              exact ⟨hfaithful.has_of_account hstands.2, hrates⟩
          | error e => exact lists
      | _ => exact lists
  | submitting task results =>
      obtain ⟨rfl, hrates⟩ := lists
      exact ⟨hfaithful.has_of_account hstands.2, hrates⟩
  | finished answer => exact lists
  | crashed task => exact lists

/-- A batch goes on to become a task with its links, whoever has the turn. -/
theorem Listed.turn (h : Listed c key links) (veiled : Veiled log d₀ here base s c)
    (refuses : s.front.Refuses) (renders : ∀ tasks, s.render tasks ≠ .crash)
    (can : c.CanGo (process s) other a) : Listed (c.turn (process s) other a) key links := by
  obtain ⟨stage, hstage, hlists⟩ := h
  by_cases hne : key = other
  · subst hne
    obtain rfl := Option.some.inj (hstage.symm.trans can.here)
    exact ⟨_, Crowd.getElem?_after_self can.here, veiled.lists_step can.here refuses hlists⟩
  · exact ⟨stage, Crowd.getElem?_after_of_ne hne hstage,
      hlists.congr fun id => veiled.has_turn renders can⟩

/-- What is submitted in a turn is what the batch goes on with. -/
theorem listed_of_submission? {d : Deed World Activity} (h : submission? d = some (key, links)) :
    d.key = key ∧ ∃ caller, d.task = .batch (.creating caller (.arriving (.create links))) := by
  unfold submission? at h
  split at h
  · next htask =>
    cases h
    exact ⟨rfl, _, htask⟩
  · cases h

/-- On every trail, batches go on to become tasks with the links that were submitted. -/
theorem listed_of_trail {first : Crowd World Activity} {pace : Crowd World Activity → Nat → Prop}
    {deeds : List (Deed World Activity)} (site : Site log d₀ here base s.moment)
    (refuses : s.front.Refuses) (renders : ∀ tasks, s.render tasks ≠ .crash)
    (start : Veiled log d₀ here base s first)
    (trail : Crowd.Trail (process s) pace AskedOrOrder first deeds c) (room : Roomy log s c) :
    ∀ key links, (key, links) ∈ submissions deeds → Listed c key links := by
  induction trail with
  | begin =>
      intro key links h
      cases h
  | @turn deeds c other a trail can ih =>
      have hroom := room.of_le (length_receipts_le_step _)
      have hveiled := Veiled.of_trail site refuses renders start trail hroom
      intro key links h
      refine Listed.turn ?_ hveiled refuses renders can
      rw [submissions, filterMap_concat] at h
      rcases List.mem_append.1 h with hold | hnew
      · exact ih hroom key links hold
      · obtain ⟨rfl, caller, rfl⟩ := listed_of_submission? (Option.mem_toList.1 hnew)
        exact ⟨_, can.here, rfl⟩
  | await trail le may ih => exact ih room
  | call trail may ih =>
      intro key links h
      obtain ⟨stage, hstage, hlists⟩ := ih room key links h
      exact ⟨stage, Crowd.getElem?_call_of_some hstage, hlists⟩

/-! ## All batches were submitted -/

/-- Batches come from batches, and are started by callers only. -/
theorem batch_of_step {stage : BatchCall}
    (h : (a.step s now key w).task = .batch stage ∨ .batch stage ∈ (a.step s now key w).started) :
    ∃ stage', a = .batch stage' := by
  cases a with
  | batch stage' => exact ⟨stage', rfl⟩
  | submission job stage' =>
      cases stage' with
      | inLine =>
          rcases h with h | h
          · cases h
          · cases List.mem_singleton.1 h
      | _ => rcases h with h | h <;> cases h
  | _ => rcases h with h | h <;> cases h

theorem batch_not_mem_started {stage stage' : BatchCall} :
    .batch stage ∉ (Activity.step s now key w (.batch stage')).started := by
  intro h
  rcases List.mem_append.1 h with h | h
  · obtain ⟨check, -, hcheck⟩ := List.mem_map.1 h
    cases hcheck
  · obtain ⟨job, -, hjob⟩ := List.mem_map.1 h
    cases hjob

/-- On every trail, all batches that have had a turn were submitted. -/
theorem submitted_of_trail {first : Crowd World Activity}
    {pace : Crowd World Activity → Nat → Prop} {deeds : List (Deed World Activity)}
    (start : ∀ (key : TaskKey) stage, first.tasks[key]? ≠ some (.batch stage))
    (trail : Crowd.Trail (process s) pace AskedOrOrder first deeds c) :
    ∀ (key : TaskKey) stage, c.tasks[key]? = some (.batch stage) →
      (∃ links caller, stage = .start links caller) ∨
        ∃ links, (key, links) ∈ submissions deeds := by
  induction trail with
  | begin => exact fun key stage hkey => absurd hkey (start key stage)
  | @turn deeds c other a trail can ih =>
      have hsubmissions : submissions (deeds ++ [c.deed (process s) other a]) =
          submissions deeds ++ (submission? (c.deed (process s) other a)).toList :=
        filterMap_concat ..
      intro key stage hkey
      rw [hsubmissions]
      rcases Crowd.getElem?_after can.here hkey with ⟨rfl, htask⟩ | ⟨-, hold⟩ | ⟨i, -, hi⟩
      · obtain ⟨before, rfl⟩ := batch_of_step (.inl htask.symm)
        rcases ih key before can.here with ⟨links, caller, rfl⟩ | ⟨links, hlinks⟩
        · exact .inr ⟨links, List.mem_append_right _ (List.mem_singleton_self _)⟩
        · exact .inr ⟨links, List.mem_append_left _ hlinks⟩
      · rcases ih key stage hold with hfresh | ⟨links, hlinks⟩
        · exact .inl hfresh
        · exact .inr ⟨links, List.mem_append_left _ hlinks⟩
      · have hmem := List.mem_of_getElem? hi
        obtain ⟨before, rfl⟩ := batch_of_step (.inr hmem)
        exact absurd hmem batch_not_mem_started
  | await trail le may ih => exact ih
  | call trail may ih =>
      intro key stage hkey
      rcases Crowd.getElem?_call hkey with ⟨-, rfl⟩ | hold
      · rcases may with hasked | horder
        · cases hasked
          exact .inl ⟨_, _, rfl⟩
        · cases horder
      · exact ih key stage hold

end Listed

end Engine

end Reachability
