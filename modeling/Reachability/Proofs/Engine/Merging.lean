import Reachability.Proofs.Engine.Checks
import Reachability.Proofs.Trail

set_option autoImplicit false

/-! # Which status a link gets

A link that was submitted more than once is checked as often, and all its checks report to the same
place. Each status takes the place of the one before it, so a link gets the status of the check that
ends last, and what an earlier check found is lost: a link that was found to be available counts as
such just if its last check found so, too (`available_iff_last`). -/

namespace Reachability.Engine

/-- The status with which the check of a link ends, for the checks of a batch. -/
def Activity.ends? (batch : TaskKey) (link : String) : Activity → Option LinkStatus
  | check parent _ (.finished l status) => if parent = batch ∧ l = link then some status else none
  | _ => none

/-- The statuses with which the checks of a link end on a trail, for one batch, in the order in
    which they end. -/
def statuses (deeds : List (Deed World Activity)) (batch : TaskKey) (link : String) :
    List LinkStatus :=
  deeds.filterMap fun d => d.turn.task.ends? batch link

/-- Whether a task is a batch whose checks have been started. -/
def Activity.isLaunched (a : Activity) : Bool := a.isJoining || a.results?.isSome

/-- What a batch found goes to the store as it is, and says that a link is available just if the
    last of its checks found so. -/
structure Told (deeds : List (Deed World Activity)) (key : TaskKey) (id : TaskId)
    (results : Results) : Prop where
  last : ∀ link, results.get? link = some .available ↔
    (statuses deeds key link).getLast? = some .available
  asked : ∃ d ∈ deeds, d.key = key ∧ ∃ task, d.turn.task =
    .batch (.updating task results (.arriving (.update id results)))

/-- What has come of the links of each batch is what the last check of each link found. -/
structure Merged (deeds : List (Deed World Activity)) (c : Crowd World Activity) : Prop where
  launched : ∀ batch link, statuses deeds batch link ≠ [] →
    c.tasks[batch]?.any Activity.isLaunched = true
  joining : ∀ (key : TaskKey) task deadline,
    c.tasks[key]? = some (.batch (.joining task deadline)) →
    ∀ link, (c.shared.found key).get? link = (statuses deeds key link).getLast?
  told : ∀ (key : TaskKey) a id results, c.tasks[key]? = some a →
    a.results? = some (id, results) → Told deeds key id results

section Turns

variable {s : Settings} {networks : Nat → TaskKey → World → Network}
  {deeds : List (Deed World Activity)} {d : Deed World Activity} {c : Crowd World Activity}
  {key : TaskKey} {a : Activity} {t : Turn World Activity}

theorem statuses_append (batch : TaskKey) (link : String) :
    statuses (deeds ++ [d]) batch link =
      statuses deeds batch link ++ (d.turn.task.ends? batch link).toList := by
  rw [statuses, statuses, List.filterMap_append]
  cases h : d.turn.task.ends? batch link <;> simp [h]

theorem statuses_append_of_none {batch : TaskKey} {link : String}
    (h : d.turn.task.ends? batch link = none) :
    statuses (deeds ++ [d]) batch link = statuses deeds batch link := by
  rw [statuses_append, h, Option.toList_none, List.append_nil]

theorem Told.append {id : TaskId} {results : Results} (h : Told deeds key id results)
    (hends : ∀ link, d.turn.task.ends? key link = none) :
    Told (deeds ++ [d]) key id results where
  last link := by
    rw [statuses_append_of_none (hends link)]
    exact h.last link
  asked := by
    obtain ⟨e, he, hrest⟩ := h.asked
    exact ⟨e, List.mem_append_left _ he, hrest⟩

/-- New tasks are no batches that have started their checks. -/
theorem Deals.isLaunched_started (h : Deals s c.now key c.shared a t) :
    ∀ b ∈ t.started, b.isLaunched = false := by
  intro b hb
  rcases h.started_cases hb with ⟨link, task, deadline, rfl, -⟩ | ⟨job, stage, rfl⟩ <;> rfl

/-- A turn in which no check ends. What is left to show is what became of the task that had it. -/
theorem Merged.of_quiet (h : Merged deeds c) (deals : Deals s c.now key c.shared a t)
    (hkey : c.tasks[key]? = some a) (hturn : d.turn = t)
    (quiet : ∀ batch link, t.task.ends? batch link = none)
    (launched : a.isLaunched = true → t.task.isLaunched = true)
    (found : ∀ k, k ≠ key → t.shared.found k = c.shared.found k)
    (joining : ∀ task deadline, t.task = .batch (.joining task deadline) →
      ∀ link, (t.shared.found key).get? link = (statuses deeds key link).getLast?)
    (told : ∀ id results, t.task.results? = some (id, results) →
      Told (deeds ++ [d]) key id results) : Merged (deeds ++ [d]) (c.after key t) := by
  have hquiet : ∀ batch link, d.turn.task.ends? batch link = none := hturn ▸ quiet
  refine ⟨fun batch link hne => ?_, fun k task deadline hk link => ?_,
    fun k b id results hk hresults => ?_⟩
  · rw [statuses_append_of_none (hquiet batch link)] at hne
    have hbefore := h.launched batch link hne
    by_cases hself : batch = key
    · rw [hself, hkey, Option.any_some] at hbefore
      rw [hself, Crowd.getElem?_after_self hkey, Option.any_some]
      exact launched hbefore
    · rw [Crowd.any_after _ hself deals.isLaunched_started]
      exact hbefore
  · rw [statuses_append_of_none (hquiet k link)]
    rcases Crowd.getElem?_after hkey hk with ⟨rfl, htask⟩ | ⟨hne, hk⟩ | ⟨i, -, hi⟩
    · exact joining task deadline htask.symm link
    · show (t.shared.found k).get? link = _
      rw [found k hne]
      exact h.joining k task deadline hk link
    · cases deals.isLaunched_started _ (List.mem_of_getElem? hi)
  · rcases Crowd.getElem?_after hkey hk with ⟨rfl, rfl⟩ | ⟨-, hk⟩ | ⟨i, -, hi⟩
    · exact told id results hresults
    · exact (h.told k b id results hk hresults).append (hquiet k)
    · have hnew := deals.isLaunched_started _ (List.mem_of_getElem? hi)
      rw [Activity.isLaunched, hresults, Option.isSome_some, Bool.or_true] at hnew
      cases hnew

/-- What has come of the links of each batch when a check has ended. -/
theorem found_report {w : World} {parent : TaskKey} {p : Progress}
    (hp : w.batches.get? parent = some p) (link : String) (status : LinkStatus) (k : TaskKey) :
    (LinkCheck.report parent link status w).found k =
      if k = parent then p.results.insert link status else w.found k := by
  rw [LinkCheck.report_eq hp, World.found, Table.get?_insert]
  by_cases hparent : k = parent
  · rw [if_pos hparent, if_pos hparent]
  · rw [if_neg hparent, if_neg hparent]
    rfl

/-- A turn in which a check ends: its status comes last, and takes the place of any before it. -/
theorem Merged.of_end (h : Merged deeds c) (joined : Joined c) {parent : TaskKey} {deadline : Nat}
    {stage : LinkCheck} {link : String} {status : LinkStatus} {permits : Permits}
    (hkey : c.tasks[key]? = some (.check parent deadline stage)) (going : stage.isFinished = false)
    (hturn : d.turn = ⟨LinkCheck.report parent link status { c.shared with permits },
      .check parent deadline (.finished link status), []⟩) :
    Merged (deeds ++ [d]) (c.after key d.turn) := by
  obtain ⟨task, hparent, -⟩ := joined.parents key parent deadline stage hkey going
  obtain ⟨p, hp, -⟩ := joined.joining parent task deadline hparent
  have hne : parent ≠ key := by
    rintro rfl
    rw [hkey] at hparent
    cases hparent
  have hothers : ∀ k, k ≠ key → (c.after key d.turn).tasks[k]? = c.tasks[k]? := fun k hk =>
    Crowd.getElem?_after_alone hk (by rw [hturn])
  have hself : (c.after key d.turn).tasks[key]? =
      some (.check parent deadline (.finished link status)) := by
    rw [Crowd.getElem?_after_self hkey, hturn]
  have hends : ∀ batch l, d.turn.task.ends? batch l =
      if parent = batch ∧ link = l then some status else none := by
    intro batch l
    rw [hturn]
    rfl
  have hfound : ∀ k, d.turn.shared.found k =
      if k = parent then p.results.insert link status else c.shared.found k := by
    intro k
    rw [hturn]
    exact found_report (w := { c.shared with permits }) hp link status k
  refine ⟨fun batch l hstatuses => ?_, fun k task' deadline' hk l => ?_,
    fun k b id results hk hresults => ?_⟩
  · by_cases hbatch : parent = batch
    · rw [← hbatch, hothers parent hne, hparent]
      rfl
    · rw [statuses_append_of_none (by rw [hends, if_neg fun hboth => hbatch hboth.1])] at hstatuses
      have hbefore := h.launched batch l hstatuses
      rwa [hothers]
      rintro rfl
      rw [hkey] at hbefore
      cases hbefore
  · have hk' : c.tasks[k]? = some (.batch (.joining task' deadline')) := by
      rwa [hothers] at hk
      rintro rfl
      rw [hself] at hk
      cases hk
    show (d.turn.shared.found k).get? l = _
    rw [hfound, statuses_append, hends]
    have hbefore := h.joining k task' deadline' hk' l
    by_cases hbatch : k = parent
    · subst hbatch
      have hresults : c.shared.found k = p.results := by rw [World.found, hp]
      rw [if_pos rfl, Table.get?_insert]
      by_cases hlink : link = l
      · rw [if_pos hlink.symm, if_pos ⟨rfl, hlink⟩, Option.toList_some, List.getLast?_concat]
      · rw [if_neg (Ne.symm hlink), if_neg fun hboth => hlink hboth.2, Option.toList_none,
          List.append_nil, ← hbefore, hresults]
    · rw [if_neg hbatch, if_neg fun hboth => hbatch hboth.1.symm, Option.toList_none,
        List.append_nil, hbefore]
  · have hk' : c.tasks[k]? = some b := by
      rwa [hothers] at hk
      rintro rfl
      obtain rfl := Option.some.inj (hself.symm.trans hk)
      cases hresults
    refine (h.told k b id results hk' hresults).append fun l => ?_
    rw [hends, if_neg]
    rintro ⟨rfl, -⟩
    obtain rfl := Option.some.inj (hparent.symm.trans hk')
    cases hresults

/-- Turns keep what has come of links with what their last checks found. -/
theorem Merged.turn (h : Merged deeds c) (joined : Joined c)
    (can : c.CanGo (amid s networks) key a) :
    Merged (deeds ++ [c.deed (amid s networks) key a]) (c.turn (amid s networks) key a) := by
  have hdeals := joined.deals can
  have hkey := can.here
  generalize hd : c.deed (amid s networks) key a = d
  have hturn : d.turn = (amid s networks).step c.now key c.tasks.length c.shared a := by
    rw [← hd, Crowd.deed]
  have hdkey : d.key = key := by rw [← hd, Crowd.deed]
  rw [Crowd.turn]
  generalize (amid s networks).step c.now key c.tasks.length c.shared a = t at hdeals hturn
  have hsame := hdeals
  -- The check of a link is no batch, and nothing has come of one that has not been started.
  have hunlaunched : ∀ {k b}, c.tasks[k]? = some b → b.isLaunched = false → ∀ link,
      statuses deeds k link = [] := by
    intro k b hb hlaunched link
    by_contra hne
    have hany := h.launched k link hne
    rw [hb, Option.any_some, hlaunched] at hany
    cases hany
  cases hdeals with
  | @launches caller task =>
      refine h.of_quiet hsame hkey hturn (fun _ _ => rfl) (fun _ => rfl) (fun k hne => ?_)
        (fun task' deadline htask link => ?_) (by rintro _ _ ⟨⟩)
      · rw [World.found, Table.get?_insert, if_neg hne]
        rfl
      · rw [World.found, Table.get?_insert, if_pos rfl, hunlaunched hkey rfl]
        rfl
  | @gathers task deadline joined' =>
      have hquiet : ∀ link, d.turn.task.ends? key link = none := by
        intro link
        rw [hturn]
        rfl
      refine h.of_quiet hsame hkey hturn (fun _ _ => rfl) (fun _ => rfl) (fun k hne => ?_)
        (by rintro _ _ ⟨⟩) fun id results hresults => ?_
      · rw [World.found, Table.get?_erase, if_neg hne]
        rfl
      · cases hresults
        refine ⟨fun link => ?_, d, List.mem_append_right _ (List.mem_singleton_self d), hdkey, task,
          by rw [hturn]⟩
        rw [statuses_append_of_none (hquiet link), ← h.joining key task deadline hkey link,
          BatchCall.get?_completed]
        cases (c.shared.found key).get? link with
        | some status => rfl
        | none =>
            rw [Option.none_or]
            split <;> exact iff_of_false (by rintro ⟨⟩) (by rintro ⟨⟩)
  | queues =>
      exact h.of_quiet hsame hkey hturn (fun _ _ => rfl) (by rintro ⟨⟩) (fun _ _ => rfl)
        (by rintro _ _ ⟨⟩) (by rintro _ _ ⟨⟩)
  | starts holds =>
      exact h.of_quiet hsame hkey hturn (fun _ _ => rfl) (by rintro ⟨⟩) (fun _ _ => rfl)
        (by rintro _ _ ⟨⟩) (by rintro _ _ ⟨⟩)
  | probes going =>
      exact h.of_quiet hsame hkey hturn (fun _ _ => rfl) (by rintro ⟨⟩) (fun _ _ => rfl)
        (by rintro _ _ ⟨⟩) (by rintro _ _ ⟨⟩)
  | givesUp without late => exact hturn ▸ h.of_end joined hkey rfl hturn
  | ends => exact hturn ▸ h.of_end joined hkey rfl hturn
  | aside haway =>
      have hjoining : ∀ {b : Activity}, b.isAside = true → b.isJoining = false := by
        intro b hb
        rw [Activity.isAside, Bool.and_eq_true, Bool.not_eq_true', Bool.not_eq_true'] at hb
        exact hb.2
      have hquiet : ∀ batch link, t.task.ends? batch link = none := by
        intro batch link
        have hafter := haway.after
        cases htask : t.task with
        | check parent deadline stage =>
            rw [htask] at hafter
            cases hafter
        | _ => rfl
      refine h.of_quiet hsame hkey hturn hquiet (fun hlaunched => ?_) (fun k _ => ?_)
        (fun task deadline htask => ?_) fun id results hresults => ?_
      · rw [Activity.isLaunched, hjoining haway.before, Bool.false_or] at hlaunched
        rw [Activity.isLaunched, haway.results, hlaunched, Bool.or_true]
      · rw [World.found, World.found, haway.batches]
      · have hafter := hjoining haway.after
        rw [htask] at hafter
        cases hafter
      · refine (h.told key a id results hkey (haway.results ▸ hresults)).append fun link => ?_
        rw [hturn]
        exact hquiet key link

/-- On every trail, what has come of links is what their last checks found. -/
theorem Merged.of_trail {w : World} {pace : Crowd World Activity → Nat → Prop}
    (trail : Crowd.Trail (amid s networks) pace Requested w.crowd deeds c) : Merged deeds c := by
  induction trail with
  | begin =>
      refine ⟨fun batch link hne => absurd rfl hne, fun key task deadline hkey => ?_,
        fun key a id results hkey hresults => ?_⟩
      · cases World.eq_idle_of_crowd hkey
      · rw [World.eq_idle_of_crowd hkey] at hresults
        cases hresults
  | turn trail can ih => exact ih.turn (.of_run trail.run) can
  | await trail le may ih => exact ⟨ih.launched, ih.joining, ih.told⟩
  | call trail may ih =>
      refine ⟨fun batch link hne => ?_, fun key task deadline hkey => ?_,
        fun key a id results hkey hresults => ?_⟩
      · rw [Crowd.any_call _ (by cases may <;> rfl)]
        exact ih.launched batch link hne
      · rcases Crowd.getElem?_call hkey with ⟨-, rfl⟩ | hkey
        · cases may
        · exact ih.joining key task deadline hkey
      · rcases Crowd.getElem?_call hkey with ⟨-, rfl⟩ | hkey
        · cases may <;> cases hresults
        · exact ih.told key a id results hkey hresults

end Turns

theorem Activity.ends?_eq_some_iff {batch : TaskKey} {link : String} {a : Activity}
    {status : LinkStatus} :
    a.ends? batch link = some status ↔ ∃ deadline, a = .check batch deadline (.finished link status) := by
  constructor
  · intro h
    unfold ends? at h
    split at h
    · split at h
      · next hboth =>
        cases h
        obtain ⟨rfl, rfl⟩ := hboth
        exact ⟨_, rfl⟩
      · cases h
    · cases h
  · rintro ⟨deadline, rfl⟩
    exact if_pos ⟨rfl, rfl⟩

/-- The statuses of a trail are those of the checks that are at their end. -/
theorem mem_statuses_iff {s : Settings} {networks : Nat → TaskKey → World → Network} {w : World}
    {pace : Crowd World Activity → Nat → Prop} {deeds : List (Deed World Activity)}
    {c : Crowd World Activity}
    (trail : Crowd.Trail (amid s networks) pace Requested w.crowd deeds c) (batch : TaskKey)
    (link : String) (status : LinkStatus) :
    status ∈ statuses deeds batch link ↔
      ∃ (k : TaskKey) (deadline : Nat),
        c.tasks[k]? = some (.check batch deadline (.finished link status)) := by
  induction trail with
  | begin =>
      refine iff_of_false List.not_mem_nil ?_
      rintro ⟨k, deadline, hk⟩
      cases World.eq_idle_of_crowd hk
  | @turn deeds c key a trail can ih =>
      rw [statuses_append, List.mem_append, ih, Option.mem_toList, Activity.ends?_eq_some_iff]
      constructor
      · rintro (⟨k, deadline, hk⟩ | ⟨deadline, htask⟩)
        · refine ⟨k, deadline, Crowd.getElem?_after_of_ne (fun hself => ?_) hk⟩
          have hend := can.unfinished
          rw [hself, can.here] at hk
          rw [Option.some.inj hk] at hend
          cases hend
        · exact ⟨key, deadline, (Crowd.getElem?_after_self can.here).trans (congrArg some htask)⟩
      · rintro ⟨k, deadline, hk⟩
        rcases Crowd.getElem?_after can.here hk with ⟨-, htask⟩ | ⟨-, hk⟩ | ⟨i, -, hi⟩
        · exact .inr ⟨deadline, htask.symm⟩
        · exact .inl ⟨k, deadline, hk⟩
        · rcases ((Joined.of_run trail.run).deals can).started_cases (List.mem_of_getElem? hi) with
            ⟨link', task, deadline', heq, -⟩ | ⟨job, stage, heq⟩ <;> cases heq
  | await trail le may ih => exact ih
  | call trail may ih =>
      rw [ih]
      constructor
      · rintro ⟨k, deadline, hk⟩
        exact ⟨k, deadline, Crowd.getElem?_call_of_some hk⟩
      · rintro ⟨k, deadline, hk⟩
        rcases Crowd.getElem?_call hk with ⟨-, rfl⟩ | hk
        · cases may
        · exact ⟨k, deadline, hk⟩

/-- When a batch has its answer, a link counts as available just if the last of its checks to end
    found it so, whatever the others found: the statuses with which its checks ended are listed in
    the order in which they did. The store was asked to keep what the caller gets. -/
theorem available_iff_last {s : Settings} {networks : Nat → TaskKey → World → Network} {w : World}
    {deeds : List (Deed World Activity)} {c : Crowd World Activity}
    (trail : Crowd.Trail (amid s networks) Crowd.anyTime Requested w.crowd deeds c)
    {key : TaskKey} {o : Outcome} (answered : Answered c key (.ok o)) :
    (∀ link, o.results.get? link = some .available ↔
      (statuses deeds key link).getLast? = some .available) ∧
    (∀ link status, status ∈ statuses deeds key link ↔
      ∃ (k : TaskKey) (deadline : Nat),
        c.tasks[k]? = some (.check key deadline (.finished link status))) ∧
    ∃ d ∈ deeds, d.key = key ∧ ∃ task, d.turn.task =
      .batch (.updating task o.results (.arriving (.update o.id o.results))) := by
  have htold := (Merged.of_trail trail).told key _ o.id o.results answered rfl
  exact ⟨htold.last, mem_statuses_iff trail key, htold.asked⟩

/-! ## Two copies of a link -/

/-- A checker with two permits. -/
def sampleBoth : Crowd World Activity :=
  (World.initial .manual (.ofStore (.fresh (.sample .zero)) ⟨.empty⟩) 2 1).crowd

/-- Both copies of a link can have a permit. -/
theorem sample_both_look : ((sampleBoth.call (.batch (.start [".", "."] none))).play?
      (amid sampleSettings sampleNetworks) [1, 1, 1, 1, 1, 2, 3, 2, 3]).isSome := by
  decide +kernel

/-- Their checks are about to look at the link. -/
def sampleCopies : Crowd World Activity := Option.get _ sample_both_look

/-- The crowd in which the first of them looks the name up. -/
def sampleLookup : Crowd World Activity :=
  ⟨0, { sampleCopies.shared with scene :=
      { Probe.Course.sampleScene with traffic := Traffic.none.addLookup "." } },
    sampleCopies.tasks.set 2 sampleAnswered⟩

/-- The crowd in which both do. -/
def sampleLookups : Crowd World Activity :=
  ⟨0, { sampleCopies.shared with scene :=
      { Probe.Course.sampleScene with traffic := (Traffic.none.addLookup ".").addLookup "." } },
    (sampleCopies.tasks.set 2 sampleAnswered).set 3 sampleAnswered⟩

/-- A check that looks at that link looks its name up. -/
theorem turn_root {networks : Nat → TaskKey → World → Network} {c : Crowd World Activity}
    {key parent : TaskKey} {deadline : Nat} {scene : Probe.Scene} {answer : Guard.Answer}
    {delay : Option Nat} (hlookup : (networks c.now key c.shared).lookup "." = ⟨answer, delay⟩)
    (hscene : c.shared.scene = scene) :
    c.turn (amid sampleSettings networks) key (.check parent deadline (.probing "." (.fresh ".")))
      = ⟨c.now, { c.shared with scene := { scene with traffic := scene.traffic.addLookup "." } },
          c.tasks.set key (.check parent deadline
            (.probing "." (.lookingUp sampleTarget answer (delay.map (c.now + ·)))))⟩ := by
  rw [Crowd.turn, step_probing rfl (step_root hlookup ..), Crowd.after, List.append_nil, hscene]

theorem sample_lookups : ∃ n, Crowd.Run (amid sampleSettings sampleNetworks) Crowd.anyTime Requested
    sampleBoth n sampleLookups := by
  have called : Crowd.Run (amid sampleSettings sampleNetworks) Crowd.anyTime Requested sampleBoth 0
      (sampleBoth.call (.batch (.start [".", "."] none))) := Crowd.Run.begin.call (.check _ _)
  have hplay : (sampleBoth.call (.batch (.start [".", "."] none))).play?
      (amid sampleSettings sampleNetworks) [1, 1, 1, 1, 1, 2, 3, 2, 3] = some sampleCopies :=
    (Option.some_get sample_both_look).symm
  obtain ⟨n, run⟩ := called.play? hplay
  have hbefore : sampleCopies.now = 0 ∧ sampleCopies.shared.scene.traffic = .none ∧
      sampleCopies.shared.scene.circuits = .empty ∧
      sampleCopies.shared.scene.clock = .ofKind .manual ∧
      sampleCopies.tasks[2]?.bind Activity.looking? = some (1, 5000, ".") ∧
      sampleCopies.tasks[3]?.bind Activity.looking? = some (1, 5000, ".") := by
    decide +kernel
  obtain ⟨hnow, htraffic, hcircuits, hclock, hfirst, hsecond⟩ := hbefore
  have hscene := eq_sampleScene htraffic hcircuits hclock
  obtain ⟨a, ha, hlooks⟩ := Option.bind_eq_some_iff.1 hfirst
  obtain ⟨b, hb, hlooks'⟩ := Option.bind_eq_some_iff.1 hsecond
  rw [Activity.eq_of_looking? hlooks] at ha
  rw [Activity.eq_of_looking? hlooks'] at hb
  have hfirst : sampleCopies.turn (amid sampleSettings sampleNetworks) 2
      (.check 1 5000 (.probing "." (.fresh "."))) = sampleLookup := by
    rw [turn_root rfl hscene, hnow]
    rfl
  have hlookup := run.turn (canGo_probing ha rfl)
  rw [hfirst] at hlookup
  have hb' : sampleLookup.tasks[3]? = some (.check 1 5000 (.probing "." (.fresh "."))) := by
    rw [sampleLookup, List.getElem?_set_ne (by decide), hb]
  have hsecond : sampleLookup.turn (amid sampleSettings sampleNetworks) 3
      (.check 1 5000 (.probing "." (.fresh "."))) = sampleLookups := turn_root rfl rfl
  have hlookups := hlookup.turn (canGo_probing hb' rfl)
  rw [hsecond] at hlookups
  exact ⟨_, hlookups⟩

/-- The first request of the first copy fails; while that check pauses, the second copy is found to
    be available, and then the deadline comes. -/
theorem available_iff_last_copy_lost : ∃ deeds c o,
    Crowd.Trail (amid sampleSettings sampleNetworks) Crowd.anyTime Requested sampleBoth deeds c ∧
      Answered c 1 (.ok o) ∧ .available ∈ statuses deeds 1 "." ∧
      (statuses deeds 1 ".").getLast? ≠ some .available ∧
      o.results.get? "." = some .notAvailable := by
  have hplay : (((sampleLookups.await 5).play? (amid sampleSettings sampleNetworks) [2, 3]).bind
      fun c => ((c.await 25).play? (amid sampleSettings sampleNetworks) [3, 3]).bind fun c =>
        (c.await 5000).play? (amid sampleSettings sampleNetworks) [2, 2, 1, 1, 1, 1, 1]).any
      (fun c => decide (c.tasks[3]?.bind (Activity.ends? 1 ".") = some .available) &&
        (c.tasks[1]?.bind Activity.outcome?).any fun o =>
          decide (o.results.get? "." = some .notAvailable)) = true := by
    decide +kernel
  obtain ⟨c, hc, hends⟩ := (Option.any_eq_true _ _).1 hplay
  obtain ⟨hcopy, hanswer⟩ := Bool.and_eq_true_iff.1 hends
  obtain ⟨first, hfirst, hc⟩ := Option.bind_eq_some_iff.1 hc
  obtain ⟨second, hsecond, hc⟩ := Option.bind_eq_some_iff.1 hc
  obtain ⟨n, run⟩ := sample_lookups
  have hstart : sampleLookups.now ≤ 5 := Nat.zero_le 5
  obtain ⟨m, run⟩ := (run.await hstart trivial).play? hfirst
  have hfive : first.now ≤ 25 := by
    rw [Crowd.play?_now hfirst]
    exact Nat.le_of_ble_eq_true rfl
  obtain ⟨l, run⟩ := (run.await hfive trivial).play? hsecond
  have hlate : second.now ≤ 5000 := by
    rw [Crowd.play?_now hsecond]
    exact Nat.le_of_ble_eq_true rfl
  obtain ⟨k, run⟩ := (run.await hlate trivial).play? hc
  obtain ⟨deeds, trail⟩ := run.trail
  obtain ⟨o, ho, hlost⟩ := (Option.any_eq_true _ _).1 hanswer
  obtain ⟨b, hb, ho⟩ := Option.bind_eq_some_iff.1 ho
  have answered : Answered c 1 (.ok o) := by rw [Answered, hb, Activity.eq_of_outcome? ho]
  obtain ⟨a, ha, hcopy⟩ := Option.bind_eq_some_iff.1 (of_decide_eq_true hcopy)
  obtain ⟨deadline, rfl⟩ := Activity.ends?_eq_some_iff.1 hcopy
  obtain ⟨hlast, hends, -⟩ := available_iff_last trail answered
  have hlost : o.results.get? "." = some .notAvailable := of_decide_eq_true hlost
  refine ⟨deeds, c, o, trail, answered, (hends _ _).2 ⟨3, deadline, ha⟩, fun havailable => ?_, hlost⟩
  rw [(hlast ".").2 havailable] at hlost
  cases hlost

end Reachability.Engine
