import Reachability.Proofs.Engine.Listing
import Reachability.Proofs.Engine.Punctual
import Reachability.Proofs.Report.Text

set_option autoImplicit false

/-! # What was checked is what is reported

When all batches and all jobs are at their end, nobody changes the store any more, and what it has
of each task is what the caller of its batch got. So a report that is ordered from then on is put
together from these answers, on the live store and on one that is opened afresh on the log
(`reports_what_was_checked`). -/

namespace Reachability.Engine

open StoreService (Visit Site Account Reads)

/-- Reports are written as they are to be. -/
def Writes (s : Settings) : Prop := ∀ tasks, s.render tasks = .text (Report.text tasks)

theorem Writes.renders {s : Settings} (writes : Writes s) (tasks : List Task) :
    s.render tasks ≠ .crash := by
  rw [writes tasks]
  nofun

/-- All reports that are ordered from now on are the given ones, if they are written at all. -/
def AllWritten (s : Settings) (c : Crowd World Activity) (report : List TaskId → String) : Prop :=
  ∀ deeds c', Crowd.Trail (process s) Crowd.anyTime IsOrder c deeds c' →
    ∀ o ∈ orders deeds, ∀ text time, Reported c' o.caller (.ok text) time → text = report o.ids

/-! ## Nobody changes the store -/

/-- Whether a task leaves the store as it is, and all that it may yet start does so, too. -/
def Activity.isSpent : Activity → Bool
  | check .. => true
  | batch (.finished _) => true
  | batch (.crashed _) => true
  | retry _ .finished => true
  | drain _ => true
  | worker _ => true
  | report _ => true
  | _ => false

/-- The queue is open, workers only ask for tasks, and nobody changes the store. -/
structure Rested (c : Crowd World Activity) : Prop where
  attended : Attended c
  reading : AllRead c
  spent : ∀ (key : TaskKey) a, c.tasks[key]? = some a → a.isSpent = true

section Rested

variable {s : Settings} {c first : Crowd World Activity} {key : TaskKey} {a : Activity}
  {deeds : List (Deed World Activity)} {pace : Crowd World Activity → Nat → Prop}

theorem Activity.isSpent_of_isReporting (h : a.isReporting = true) : a.isSpent = true := by
  cases a with
  | worker stage => rfl
  | report stage => rfl
  | _ => cases h

namespace Rested

/-- Such a task stays so, and leaves the store as it is. -/
theorem turn (h : Rested c) (renders : ∀ tasks, s.render tasks ≠ .crash)
    (can : c.CanGo (process s) key a) : Rested (c.turn (process s) key a) ∧
      (c.turn (process s) key a).shared.service.store = c.shared.service.store := by
  have attends := attends_of_canGo renders h.attended.isOpen can
  have hspent : (a.step s c.now key c.shared).task.isSpent = true ∧
      (a.step s c.now key c.shared).started = [] ∧
      (a.step s c.now key c.shared).shared.service.store = c.shared.service.store := by
    cases hreporting : a.isReporting with
    | true =>
        obtain ⟨⟨service, reports, hshared, hreads⟩, hafter, hstarted, -⟩ :=
          attends.reads hreporting fun job visit ha => h.reading key job visit (ha ▸ can.here)
        exact ⟨Activity.isSpent_of_isReporting hafter, hstarted,
          (congrArg (·.service.store) hshared).trans hreads.store⟩
    | false =>
        have ha := h.spent key a can.here
        cases a with
        | check parent deadline stage =>
            exact ⟨rfl, rfl, congrArg StoreService.store (plain_check can).service_eq⟩
        | drain stage =>
            exact ⟨rfl, rfl, congrArg StoreService.store (plain_drain can).service_eq⟩
        | batch stage =>
            cases stage with
            | finished | crashed => cases can.unfinished
            | _ => cases ha
        | retry job stage =>
            cases stage with
            | finished => cases can.unfinished
            | _ => cases ha
        | worker stage => cases hreporting
        | report stage => cases hreporting
        | _ => cases ha
  refine ⟨⟨h.attended.after attends can.here, h.reading.turn attends can.here, ?_⟩, hspent.2.2⟩
  refine Crowd.forall_after can.here h.spent hspent.1 fun b hb => ?_
  have hnone : b ∈ (a.step s c.now key c.shared).started := hb
  rw [hspent.2.1] at hnone
  cases hnone

theorem call (h : Rested c) (order : IsOrder a) : Rested (c.call a) := by
  refine ⟨h.attended.call (.inl order), h.reading.call (.inl order), fun k b hb => ?_⟩
  rcases Crowd.getElem?_call hb with ⟨-, rfl⟩ | hold
  · cases order
    rfl
  · exact h.spent k b hold

/-- While only reports are ordered, all see the store as it was. -/
theorem of_trail (renders : ∀ tasks, s.render tasks ≠ .crash) (start : Rested first)
    (trail : Crowd.Trail (process s) pace IsOrder first deeds c) :
    Rested c ∧ c.shared.service.store = first.shared.service.store ∧
      ∀ d ∈ deeds, d.found.service.store = first.shared.service.store := by
  induction trail with
  | begin => exact ⟨start, rfl, List.forall_mem_nil _⟩
  | turn trail can ih =>
      obtain ⟨hrested, hstore, hdeeds⟩ := ih
      obtain ⟨hrested', hstore'⟩ := hrested.turn renders can
      exact ⟨hrested', hstore'.trans hstore,
        List.forall_mem_append.2 ⟨hdeeds, List.forall_mem_singleton.2 hstore⟩⟩
  | await trail le may ih => exact ⟨⟨ih.1.attended.await _, ih.1.reading, ih.1.spent⟩, ih.2⟩
  | call trail may ih => exact ⟨ih.1.call may, ih.2⟩

/-- So reports are on what it has. -/
theorem allWritten (h : Rested c) (refuses : s.front.Refuses) (writes : Writes s) :
    AllWritten s c fun ids =>
      Report.title ++ String.join (ids.map c.shared.service.store.part) := by
  intro deeds c' trail o ho text time hreported
  have renders := writes.renders
  obtain ⟨-, -, hdeeds⟩ := of_trail renders h trail
  obtain ⟨stage, hstage, hcalls⟩ := (Order.Stands.of_anyTime renders h.attended
    (trail.mono (fun _ _ hp => hp) fun _ => .inl) o ho).caller
  obtain rfl := Activity.report.inj (Option.some.inj (hstage.symm.trans hreported))
  obtain ⟨given, -, hgets⟩ := hcalls
  obtain ⟨-, reply, ⟨d, hd, -, hanswer⟩, hrender⟩ := hgets.text
  rw [StoreService.answerTo] at hanswer
  split at hanswer
  · next delayed before =>
    obtain ⟨e, he⟩ := refuses _ _ _ before
    cases he.symm.trans hanswer
  · cases hanswer
    rw [writes, hdeeds d hd] at hrender
    cases hrender
    exact Store.text_get ..

end Rested

end Rested

/-! ## What the store has in the end -/

/-- All jobs are at their end. -/
def AllDrained (c : Crowd World Activity) : Prop :=
  ∀ (key : TaskKey) job stage, c.tasks[key]? = some (.retry job stage) → stage = .finished

section Veiled

variable {log : Log} {d₀ : Disk} {here : Disk.Place} {base : String} {s : Settings}
  {c : Crowd World Activity} {key : TaskKey} {o : Outcome} {id : TaskId}

theorem created_of_veil {v : Except StoreError TaskId} (h : Created (veil c) key v) :
    Created c key v := by
  obtain ⟨stage, hstage, hcreated⟩ := h
  exact ⟨stage, of_veil hstage nofun nofun, hcreated⟩

theorem AllEnded.veil (h : AllEnded c) : AllEnded (veil c) :=
  fun key stage hkey => h key stage (of_veil hkey nofun nofun)

theorem AllDrained.veil (h : AllDrained c) : AllDrained (veil c) :=
  fun key job stage hkey => h key job stage (of_veil hkey nofun nofun)

theorem get?_of_get {store : Store} {task : Task} (h : store.get [id] = [task]) :
    store.index.tasks.get? id = some task := by
  rw [Store.get, Index.select, List.filterMap_cons] at h
  cases hget : store.index.tasks.get? id with
  | none =>
      rw [hget] at h
      cases h
  | some found =>
      rw [hget] at h
      cases h
      rfl

namespace Veiled

/-- Then nobody changes the store any more. -/
theorem rested (h : Veiled log d₀ here base s c) (ended : AllEnded c)
    (drained : AllDrained c) : Rested c := by
  refine ⟨h.attended, h.reading, fun key a hkey => ?_⟩
  obtain ⟨published, hfaithful⟩ := h.faithful
  have hkind := hfaithful.ordered.kinds key _ (getElem?_veil hkey)
  cases a with
  | batch stage =>
      cases stage with
      | finished | crashed => rfl
      | _ => cases ended key _ hkey
  | retry job stage =>
      obtain rfl := drained key job stage hkey
      rfl
  | check | drain | worker | report => rfl
  | submission | probe | rest => cases hkind

/-- If the result of a batch was stored, its task has the statuses that the caller got. -/
theorem get?_of_stored (h : Veiled log d₀ here base s c) (site : Site log d₀ here base s.moment)
    (ended : AllEnded c) (drained : AllDrained c) (hkey : Answered c key (.ok o))
    (stored : ∃ r ∈ updates c o.id, r.answer = none) :
    ∃ task : Task, c.shared.service.store.index.tasks.get? o.id = some task ∧ task.id = o.id ∧
      task.result = o.results := by
  obtain ⟨published, hfaithful⟩ := h.faithful
  obtain ⟨l, hbooks⟩ := hfaithful.books_of_drained ended.veil drained.veil
  obtain ⟨task, hid, hempty, haccount⟩ :=
    hfaithful.account_of_drained (getElem?_veil hkey) drained.veil
  have hpersisted : Persisted log s (veil c) o :=
    persisted_of_account site hbooks hid hempty haccount
  obtain ⟨links, hshows⟩ := hpersisted.stored stored
  exact ⟨_, get?_of_get hshows.live, rfl, rfl⟩

/-- The store has the task of a batch that crashed as it was created. -/
theorem get?_of_crashed (h : Veiled log d₀ here base s c) {task : Task}
    (hkey : Crashed c key task) :
    c.shared.service.store.index.tasks.get? task.id = some task ∧ task.result = .empty := by
  obtain ⟨published, hfaithful⟩ := h.faithful
  obtain ⟨hempty, haccount⟩ := hfaithful.account_of_crashed (getElem?_veil hkey)
  exact ⟨(congrArg (·.get? task.id) hfaithful.tasks_eq).trans haccount.get?, hempty⟩

/-- The store has no task that no batch became. -/
theorem get?_of_unknown (h : Veiled log d₀ here base s c) (ended : AllEnded c)
    (unknown : ∀ key, ¬ Created c key (.ok id)) :
    c.shared.service.store.index.tasks.get? id = none := by
  obtain ⟨published, hfaithful⟩ := h.faithful
  refine hfaithful.get?_of_unheard (hfaithful.kept.unheard id fun key hkey => ?_)
  obtain ⟨a, ha, hcarries⟩ := Option.bind_eq_some_iff.1 hkey
  cases a with
  | batch stage =>
      cases stage with
      | finished answer =>
          cases answer with
          | ok o =>
              simp only [Activity.carries?] at hcarries
              split at hcarries
              · cases hcarries
              · obtain rfl : o.id = id := Option.some.inj hcarries
                exact unknown key (created_of_veil ⟨_, ha, rfl⟩)
          | error e => cases hcarries
      | crashed task =>
          obtain rfl : task.id = id := Option.some.inj hcarries
          exact unknown key (created_of_veil ⟨_, ha, rfl⟩)
      | _ => cases ended.veil key _ ha
  | retry job stage =>
      obtain ⟨key', hbatch⟩ := hfaithful.ordered.origins key job stage ha
      obtain rfl : job.id = id := Option.some.inj hcarries
      exact unknown key' (created_of_veil ⟨_, hbatch, rfl⟩)
  | _ => cases hcarries

/-- A store that is opened afresh on the log has the same tasks. -/
theorem reopened (h : Veiled log d₀ here base s c) (site : Site log d₀ here base s.moment)
    (ended : AllEnded c) (drained : AllDrained c) (now : Int) :
    ∃ store, (Store.opened log).run.run now c.shared.service.disk =
        (.ok store, c.shared.service.disk) ∧
      store.index.tasks = c.shared.service.store.index.tasks := by
  obtain ⟨published, hfaithful⟩ := h.faithful
  obtain ⟨l, hbooks⟩ := hfaithful.books_of_drained ended.veil drained.veil
  exact ⟨_, hbooks.run_opened site now, hfaithful.tasks_eq.symm⟩

end Veiled

end Veiled

/-- Idle workers leave the store alone. -/
theorem Rested.first (clock : ClockKind) (service : StoreService) (workers reportWorkers : Nat) :
    Rested (World.initial clock service workers reportWorkers).crowd where
  attended := .first ..
  reading key job visit hkey := by cases World.eq_idle_of_crowd hkey
  spent key a hkey := by
    rw [World.eq_idle_of_crowd hkey]
    rfl

/-- Batches, jobs and reports on a store whose log was empty and keeps its segments for ever, behind
    a front that may refuse calls, in any order of turns, until all batches and all jobs are at
    their end.

    All batches that have an answer were submitted. Each number has its part in reports from then
    on. That of a batch whose result was stored has a line for each link, in the order in which its
    caller submitted them, with the status that the caller got for it; that of a batch that crashed
    has such a line too, but no link is available in it; that of a number which no batch got is
    empty. A report that is written has the parts of the numbers that were asked for, in that
    order, on this store and on one that is opened afresh on the log, whatever the settings and the
    workers then are. -/
theorem reports_what_was_checked {log : Log} {d₀ : Disk} {here : Disk.Place} {base : String}
    {s : Settings} {clock : ClockKind} {store : Store} {disk : Disk} {workers reportWorkers : Nat}
    {sec : Int} {deeds : List (Deed World Activity)} {c : Crowd World Activity}
    (site : Site log d₀ here base s.moment)
    (opened : (Store.opened log).run.run sec d₀ = (.ok store, disk)) (refuses : s.front.Refuses)
    (writes : Writes s)
    (trail : Crowd.Trail (process s) Crowd.anyTime AskedOrOrder
      (World.initial clock (.ofStore store disk) workers reportWorkers).crowd deeds c)
    (room : Roomy log s c) (ended : AllEnded c) (drained : AllDrained c) :
    (∀ key o, Answered c key (.ok o) → ∃ links, (key, links) ∈ submissions deeds) ∧
    ∃ part : TaskId → String,
      (∀ key links o, (key, links) ∈ submissions deeds → Answered c key (.ok o) →
        (∃ r ∈ updates c o.id, r.answer = none) →
        ∃ status, (∀ link ∈ links, o.results.get? link = some (status link)) ∧
          part o.id = Report.part o.id links status) ∧
      (∀ key links task, (key, links) ∈ submissions deeds → Crashed c key task →
        part task.id = Report.part task.id links fun _ => .notAvailable) ∧
      (∀ id, (∀ key, ¬ Created c key (.ok id)) → part id = "") ∧
      AllWritten s c (fun ids => Report.title ++ String.join (ids.map part)) ∧
      ∀ now, ∃ again, (Store.opened log).run.run now c.shared.service.disk =
          (.ok again, c.shared.service.disk) ∧
        ∀ (s' : Settings) clock' workers' reportWorkers', s'.front.Refuses → Writes s' →
          AllWritten s' (World.initial clock' (.ofStore again c.shared.service.disk) workers'
            reportWorkers').crowd fun ids => Report.title ++ String.join (ids.map part) := by
  have renders := writes.renders
  have start : Veiled log d₀ here base s
      (World.initial clock (.ofStore store disk) workers reportWorkers).crowd :=
    .first site opened
  have veiled := Veiled.of_trail site refuses renders start trail room
  refine ⟨fun key o hkey => ?_, c.shared.service.store.part,
    fun key links o hsubmitted hkey hstored => ?_, fun key links task hsubmitted hkey => ?_,
    fun id hunknown => Store.part_of_none (veiled.get?_of_unknown ended hunknown),
    (veiled.rested ended drained).allWritten refuses writes, fun now => ?_⟩
  · rcases submitted_of_trail (fun key stage h => nomatch World.eq_idle_of_crowd h) trail key _ hkey
      with ⟨links, caller, hfresh⟩ | hsubmitted
    · cases hfresh
    · exact hsubmitted
  · obtain ⟨stage, hstage, hlists⟩ :=
      listed_of_trail site refuses renders start trail room key links hsubmitted
    obtain rfl := Activity.batch.inj (Option.some.inj (hstage.symm.trans hkey))
    obtain ⟨⟨task, htask, rfl⟩, hrates⟩ := hlists
    obtain ⟨found, hget, hid, hresult⟩ :=
      veiled.get?_of_stored site ended drained hkey hstored
    obtain rfl := Option.some.inj (hget.symm.trans htask)
    refine ⟨found.statusOf, fun link hlink => ?_, (Store.part_of_some hget).trans (by rw [hid])⟩
    obtain ⟨status, hstatus⟩ := hrates link hlink
    rw [Task.statusOf, hresult, hstatus]
    rfl
  · obtain ⟨stage, hstage, hlists⟩ :=
      listed_of_trail site refuses renders start trail room key links hsubmitted
    obtain rfl := Activity.batch.inj (Option.some.inj (hstage.symm.trans hkey))
    obtain rfl : task.links = links := hlists
    obtain ⟨hget, hempty⟩ := veiled.get?_of_crashed hkey
    have hstatus : task.statusOf = fun _ => .notAvailable := by
      funext link
      rw [Task.statusOf, hempty]
      rfl
    exact (Store.part_of_some hget).trans (by rw [hstatus])
  · obtain ⟨again, hopened, htasks⟩ := veiled.reopened site ended drained now
    refine ⟨again, hopened, fun s' clock' workers' reportWorkers' refuses' writes' => ?_⟩
    rw [← Store.part_congr htasks]
    exact (Rested.first ..).allWritten refuses' writes'

/-! ## A batch whose result was stored by a job -/

/-- Settings with a front that refuses the first result, and with reports. -/
def sampleWriting : Settings :=
  { sampleSettings with render := fun tasks => .text (Report.text tasks) }

/-- A batch of two links that are the same. -/
def sampleBatch : Activity := .batch (.start ["a/b", "a/b"] none)

/-- A caller that asks for the first task, for another one and for the first one again. -/
def sampleOrder : Activity := .report (.fresh [1, 7, 1] 0 5)

/-- A caller that may start at once can do so. -/
theorem canGo_sampleOrder (s : Settings) (c : Crowd World Activity) :
    (c.call sampleOrder).CanGo (process s) c.tasks.length sampleOrder := by
  have hwait : ReportCall.wait c.now c.tasks.length c.shared (.fresh [1, 7, 1] 0 5) = .nothing := by
    rw [ReportCall.wait, if_pos (Nat.zero_le _)]
  exact ⟨List.getElem?_concat_length, rfl, .inl hwait⟩

/-- Whether a job is at its end, if the activity is one. -/
def Activity.isDone : Activity → Bool
  | .retry _ .finished => true
  | .retry .. => false
  | _ => true

theorem allDrained_of_all {c : Crowd World Activity} (h : c.tasks.all (·.isDone) = true) :
    AllDrained c := by
  intro key job stage hkey
  have hend := List.all_eq_true.1 h _ (List.mem_of_getElem? hkey)
  cases stage with
  | finished => rfl
  | _ => cases hend

/-- The number of the task of a batch, if one was created. -/
def Activity.created? : Activity → Option TaskId
  | .batch stage => stage.created?.bind Except.toOption
  | _ => none

theorem id_eq_of_all {c : Crowd World Activity} {id other : TaskId}
    (h : c.tasks.all (·.created?.all (· == id)) = true) {key : TaskKey}
    (hkey : Created c key (.ok other)) : other = id := by
  obtain ⟨stage, hstage, hcreated⟩ := hkey
  have hid := List.all_eq_true.1 h _ (List.mem_of_getElem? hstage)
  rw [Activity.created?, hcreated] at hid
  exact beq_iff_eq.1 hid

theorem reported_of_any {c : Crowd World Activity} {key : TaskKey}
    (h : (c.tasks[key]?.bind Activity.report?).any (·.1.isOk) = true) :
    ∃ text time, Reported c key (.ok text) time := by
  obtain ⟨⟨answer, time⟩, hreport, hok⟩ := (Option.any_eq_true _ _).1 h
  cases answer with
  | error e => cases hok
  | ok text => exact ⟨text, time, reported_of_report? hreport⟩

/-- The first result is refused and then stored by a job. The caller of the report gets the part of
    the task twice, and nothing for the number that no batch got. -/
theorem reports_what_was_checked_twice : ∃ deeds c deeds' c' text time status,
    Crowd.Trail (process sampleWriting) Crowd.anyTime AskedOrOrder sampleCrowd deeds c ∧
    (1, ["a/b", "a/b"]) ∈ submissions deeds ∧
    (∃ o, Answered c 1 (.ok o) ∧ o.id = 1 ∧ o.deferred = true ∧
      o.results.get? "a/b" = some (status "a/b")) ∧
    Crowd.Trail (process sampleWriting) Crowd.anyTime IsOrder c deeds' c' ∧
    Reported c' c.tasks.length (.ok text) time ∧
    text = Report.title ++ String.join
      [Report.part 1 ["a/b", "a/b"] status, "", Report.part 1 ["a/b", "a/b"] status] := by
  have hplay : (((sampleCrowd.call sampleBatch).turn (process sampleWriting) 1 sampleBatch).play?
      (process sampleWriting)
      [1, 1, 1, 1, 2, 2, 2, 2, 3, 3, 3, 3, 1, 1, 1, 1, 1, 4, 4, 4, 4, 4]).any (fun c =>
        decide (c.shared.service.receipts.length ≤ 10) && c.tasks.all (!·.isPending) &&
        c.tasks.all (·.isDone) && c.tasks.all (·.created?.all (· == 1)) &&
        (c.tasks[1]?.bind Activity.outcome?).any (fun o =>
          o.deferred && (updates c o.id).any (·.answer.isNone)) &&
        (((c.call sampleOrder).turn (process sampleWriting) c.tasks.length sampleOrder).play?
          (process sampleWriting) [5, 0, 0, 0, 0, 0, 5]).any fun c' =>
            (c'.tasks[c.tasks.length]?.bind Activity.report?).any (·.1.isOk)) = true := by
    decide +kernel
  obtain ⟨c, hc, h⟩ := (Option.any_eq_true _ _).1 hplay
  simp only [Bool.and_eq_true, decide_eq_true_eq] at h
  obtain ⟨⟨⟨⟨⟨hroom, hpending⟩, hdone⟩, hids⟩, hbatch⟩, hplay'⟩ := h
  obtain ⟨c', hc', hreport⟩ := (Option.any_eq_true _ _).1 hplay'
  obtain ⟨text, time, hreported⟩ := reported_of_any hreport
  obtain ⟨o, hanswered, hdeferred, hstored⟩ : ∃ o, Answered c 1 (.ok o) ∧ o.deferred = true ∧
      ∃ r ∈ updates c o.id, r.answer = none := by
    obtain ⟨o, ho, hend⟩ := (Option.any_eq_true _ _).1 hbatch
    obtain ⟨a, ha, hoa⟩ := Option.bind_eq_some_iff.1 ho
    obtain ⟨hdeferred, hsome⟩ := Bool.and_eq_true_iff.1 hend
    obtain ⟨r, hr, hnone⟩ := List.any_eq_true.1 hsome
    have hanswer : Answered c 1 (.ok o) := by rw [Answered, ha, Activity.eq_of_outcome? hoa]
    exact ⟨o, hanswer, hdeferred, r, hr, Option.isNone_iff_eq_none.1 hnone⟩
  -- The first turns are those of the batch and of the caller that are looked at.
  have can : (sampleCrowd.call sampleBatch).CanGo (process sampleWriting) 1 sampleBatch :=
    ⟨rfl, rfl, .inl rfl⟩
  obtain ⟨n, run⟩ := Crowd.Run.begin.play? hc
  obtain ⟨deeds, trail⟩ := run.trail
  have hbefore : Crowd.Trail (process sampleWriting) Crowd.anyTime AskedOrOrder sampleCrowd _ c :=
    ((Crowd.Trail.begin.call (.inl (.check ["a/b", "a/b"] none))).turn can).trans trail
  obtain ⟨n', run'⟩ := Crowd.Run.begin.play? hc'
  obtain ⟨deeds', trail'⟩ := run'.trail
  have hafter : Crowd.Trail (process sampleWriting) Crowd.anyTime IsOrder c _ c' :=
    ((Crowd.Trail.begin.call (.order [1, 7, 1] 0 5)).turn (canGo_sampleOrder _ c)).trans trail'
  have hopened : (Store.opened (.sample .zero)).run.run 0 ⟨.empty⟩
      = (.ok (.fresh (.sample .zero)), ⟨.empty⟩) :=
    Store.run_opened_empty (Log.begins_sample .zero) 0
  have hroomy : Roomy (.sample .zero) sampleWriting c := roomy_sample rfl hroom
  obtain ⟨-, part, hpart, -, hunknown, hlive, -⟩ :=
    reports_what_was_checked (s := sampleWriting) site_sample hopened refuses_onceRefusing
      (fun _ => rfl) hbefore hroomy (allEnded_of_all hpending) (allDrained_of_all hdone)
  have hid : o.id = 1 := id_eq_of_all hids ⟨_, hanswered, rfl⟩
  have hsubmitted : (1, ["a/b", "a/b"]) ∈ submissions
      ([(sampleCrowd.call sampleBatch).deed (process sampleWriting) 1 sampleBatch] ++ deeds) :=
    List.mem_cons_self ..
  obtain ⟨status, hstatus, hone⟩ := hpart 1 _ o hsubmitted hanswered hstored
  have hseven : part 7 = "" := hunknown 7 fun key hkey =>
    absurd (id_eq_of_all hids hkey) (by decide)
  have horder : ⟨c.tasks.length, [1, 7, 1], c.now, ReportCall.deadline c.now 5⟩ ∈ orders
      ([(c.call sampleOrder).deed (process sampleWriting) c.tasks.length sampleOrder] ++ deeds') :=
    List.mem_cons_self ..
  have htext : text = Report.title ++ String.join [part 1, part 7, part 1] :=
    hlive _ c' hafter _ horder text time hreported
  refine ⟨_, c, _, c', text, time, status, hbefore, hsubmitted,
    ⟨o, hanswered, hid, hdeferred, hstatus _ (List.mem_cons_self ..)⟩, hafter, hreported, ?_⟩
  rw [hid] at hone
  rw [htext, hone, hseven]

end Reachability.Engine
