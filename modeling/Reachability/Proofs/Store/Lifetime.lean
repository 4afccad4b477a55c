import Reachability.Proofs.Log.Cause
import Reachability.Proofs.Store.Ids
import Reachability.Proofs.Store.Loading

set_option autoImplicit false

/-! # The numbers of one lifetime

From one load to the next a store counts the attempts to create a task, and the count is the number:
the attempt after `n` others asks for the number `first + n`, whether those succeeded or not
(`TakesNumber`). The greatest number is the end of it: whoever would get that is told that there is
none left, and then the store is used for its tasks only. -/

namespace Reachability.Store

open Disk.Program (Ends)

/-- What a store does after it was opened: the disk, the store, and what the attempts to create a
    task answered, in that order. All accesses may fail. Reading from the index needs no step, as it
    changes nothing. -/
inductive Lifetime (d₀ : Disk) (s₀ : Store) :
    Disk → Store → List (Except StoreError Task) → Prop where
  | begun : Lifetime d₀ s₀ d₀ s₀ []
  | created {d d' : Disk} {s s' : Store} {answers : List (Except StoreError Task)}
      {moment : Moment} {links : List String} {answer : Except StoreError Task}
      (h : Lifetime d₀ s₀ d s answers)
      (hends : Ends Anything moment.seconds (s.create moment links) d (answer, s') d') :
      Lifetime d₀ s₀ d' s' (answers ++ [answer])
  | updated {d d' : Disk} {s s' : Store} {answers : List (Except StoreError Task)}
      {moment : Moment} {id : TaskId} {result : Results} {answer : Except StoreError Unit}
      (h : Lifetime d₀ s₀ d s answers)
      (hends : Ends Anything moment.seconds (s.update moment id result) d (answer, s') d') :
      Lifetime d₀ s₀ d' s' answers

/-- What the attempt after `n` others answers, if the first one asks for the number `first`: a task
    with its number or the error of its append, as long as there are numbers. -/
def TakesNumber (first n : Nat) (answer : Except StoreError Task) : Prop :=
  first + n < Index.lastId.toNat ∧
      ((∃ task, answer = .ok task ∧ task.id.toNat = first + n) ∨
        ∃ cause, answer = .error (.log cause)) ∨
    Index.lastId.toNat ≤ first + n ∧ answer = .error .idsExhausted

section Lifetime

variable {d₀ d d' : Disk} {s₀ s s' : Store} {answers : List (Except StoreError Task)}
  {moment : Moment} {P : Disk.Request → Prop}

/-! ## One attempt -/

/-- An attempt takes the next number, and moves it on by one if it is not the greatest. -/
theorem takesNumber_of_create {first n : Nat} {links : List String}
    {answer : Except StoreError Task}
    (hnext : s.index.nextId.toNat = min (first + n) Index.lastId.toNat)
    (h : Ends P moment.seconds (s.create moment links) d (answer, s') d') :
    TakesNumber first n answer ∧
      s'.index.nextId.toNat = min (first + (n + 1)) Index.lastId.toNat := by
  rcases ends_create h with ⟨hlast, hr, -⟩ | ⟨hlast, x, happend, hr⟩
  · cases hr
    rw [hlast] at hnext
    exact ⟨.inr ⟨by omega, rfl⟩, by rw [hlast]; omega⟩
  have hlt := Index.toNat_lt_of_ne hlast
  rw [← Index.toNat_lastId] at hlt
  have hnumber : s.index.nextId.toNat = first + n := by omega
  have hafter : s.reserved.index.nextId.toNat = min (first + (n + 1)) Index.lastId.toNat := by
    have := Index.toNat_idAfter hlast
    rw [Index.idAfter, if_neg hlast] at this
    show (s.index.nextId + 1).toNat = _
    omega
  rcases hr with ⟨rfl, hr⟩ | ⟨e, rfl, hr⟩
  · cases hr
    exact ⟨.inl ⟨by omega, .inl ⟨_, rfl, hnumber⟩⟩, hafter⟩
  · cases hr
    obtain ⟨cause, rfl⟩ := (s.log.yields_append moment _).of_ends happend e rfl
    exact ⟨.inl ⟨by omega, .inr ⟨cause, rfl⟩⟩, hafter⟩

theorem contains_setResult (tasks : Table TaskId Task) (id other : TaskId) (result : Results) :
    (Index.setResult tasks id result).contains other = tasks.contains other := by
  rw [Table.contains, Table.contains, Index.get?_setResult]
  split
  · next h => rw [h, Option.isSome_map]
  · rfl

/-- A creation adds its task to those that are known. -/
theorem contains_of_create {links : List String} {answer : Except StoreError Task}
    (h : Ends P moment.seconds (s.create moment links) d (answer, s') d') {id : TaskId}
    (hid : s.index.tasks.contains id = true ∨ id ∈ createdId answer) :
    s'.index.tasks.contains id = true := by
  rcases ends_create h with ⟨-, hr, -⟩ | ⟨-, x, -, ⟨-, hr⟩ | ⟨e, -, hr⟩⟩
  · cases hr
    exact hid.resolve_right (List.not_mem_nil)
  · cases hr
    show (s.index.tasks.insert s.index.nextId _).contains id = true
    rw [Table.contains, Table.get?_insert]
    split
    · rfl
    · next hne => exact hid.resolve_right fun hmem => hne (List.mem_singleton.1 hmem)
  · cases hr
    exact hid.resolve_right (List.not_mem_nil)

/-- A result takes no task away. -/
theorem contains_of_update {id other : TaskId} {result : Results}
    {answer : Except StoreError Unit}
    (h : Ends P moment.seconds (s.update moment id result) d (answer, s') d') :
    s'.index.tasks.contains other = s.index.tasks.contains other := by
  rcases ends_update h with ⟨-, hr, -⟩ | ⟨-, x, -, ⟨-, hr⟩ | ⟨e, -, hr⟩⟩
  · cases hr
    rfl
  · cases hr
    exact contains_setResult ..
  · cases hr
    rfl

/-- A known task gets its result just if the append succeeds. -/
theorem select_of_update {id : TaskId} {result : Results} {answer : Except StoreError Unit}
    {task : Task} (htask : s.index.tasks.get? id = some task)
    (h : Ends P moment.seconds (s.update moment id result) d (answer, s') d') :
    Ends P moment.seconds (s.log.append moment (updateEntry moment id result)).run d answer d' ∧
      s'.get [id] = [if answer.isOk = true then { task with result } else task] := by
  rcases ends_update h with ⟨hnone, -, -⟩ | ⟨-, x, happend, ⟨rfl, hr⟩ | ⟨e, rfl, hr⟩⟩
  · rw [Table.contains, htask] at hnone
    cases hnone
  · cases hr
    refine ⟨happend, ?_⟩
    show [id].filterMap (Index.setResult s.index.tasks id result).get? = _
    rw [List.filterMap_cons, Index.get?_setResult, if_pos rfl, htask]
    rfl
  · cases hr
    refine ⟨happend, ?_⟩
    show [id].filterMap s.index.tasks.get? = _
    rw [List.filterMap_cons, htask]
    rfl

/-! ## All attempts -/

theorem Lifetime.takesNumbers (h : Lifetime d₀ s₀ d s answers) :
    s.index.nextId.toNat =
        min (s₀.index.nextId.toNat + answers.length) Index.lastId.toNat ∧
      ∀ n answer, answers[n]? = some answer →
        TakesNumber s₀.index.nextId.toNat n answer := by
  induction h with
  | begun =>
      have := UInt64.toNat_lt s₀.index.nextId
      refine ⟨?_, nofun⟩
      rw [Index.toNat_lastId, List.length_nil]
      omega
  | @created _ _ _ _ answers _ _ answer _ hends ih =>
      obtain ⟨hnext, htakes⟩ := ih
      obtain ⟨hanswer, hnext'⟩ := takesNumber_of_create hnext hends
      refine ⟨by rw [List.length_append, List.length_singleton]; exact hnext', fun n a ha => ?_⟩
      rcases Nat.lt_trichotomy n answers.length with hn | rfl | hn
      · rw [List.getElem?_append_left hn] at ha
        exact htakes n a ha
      · rw [List.getElem?_concat_length] at ha
        exact Option.some.inj ha ▸ hanswer
      · rw [List.getElem?_eq_none (by simp; omega)] at ha
        cases ha
  | updated _ hends ih =>
      rw [nextId_of_update hends]
      exact ih

/-- The created tasks of a lifetime are those of the store that it begins with. -/
theorem Lifetime.lifetimes {log : Log} {d : Disk} {now : Int} {s₀ : Store}
    (hopen : Ends Anything now (opened log).run d (.ok s₀) d₀)
    (h : Lifetime d₀ s₀ d' s answers) :
    Lifetimes log d Covers d' (some s) (answers.flatMap createdId) := by
  induction h with
  | begun => exact .opened .begun hopen fun _ _ => nofun
  | created _ hends ih =>
      rw [List.flatMap_append, List.flatMap_singleton]
      exact ih.created hends
  | updated _ hends ih => exact ih.updated hends

theorem Lifetime.contains (h : Lifetime d₀ s₀ d s answers) {id : TaskId}
    (hid : s₀.index.tasks.contains id = true ∨ id ∈ answers.flatMap createdId) :
    s.index.tasks.contains id = true := by
  induction h with
  | begun => exact hid.resolve_right List.not_mem_nil
  | created _ hends ih =>
      rw [List.flatMap_append, List.flatMap_singleton, List.mem_append, ← or_assoc] at hid
      exact contains_of_create hends (hid.imp_left ih)
  | updated _ hends ih => exact (contains_of_update hends).trans (ih hid)

/-- Who gets a number gets one above those of all tasks that the log had, and not the greatest. -/
theorem TakesNumber.bounds {es : List Log.Entry} {n : Nat} {answer : Except StoreError Task}
    (h : TakesNumber (Index.ofEntries es).nextId.toNat n answer) {id : TaskId}
    (hid : id ∈ createdId answer) :
    id < Index.lastId ∧ ∀ e ∈ es, ∀ task, e.change = .create task → task.id < id := by
  rcases h with ⟨hlt, ⟨task, rfl, htask⟩ | ⟨cause, rfl⟩⟩ | ⟨-, rfl⟩
  · obtain rfl : id = task.id := List.mem_singleton.1 hid
    rw [Index.toNat_nextId_ofEntries] at hlt htask
    refine ⟨UInt64.lt_iff_toNat_lt.2 (by omega), fun e he old hold => ?_⟩
    have hmem : old.id ∈ Index.createdIds es :=
      Index.mem_createdIds.2 ⟨e, he, old, by rw [Log.Entry.created?, hold], rfl⟩
    have hle : old.id.toNat + 1 ≤ (Index.createdIds es).sup fun id => id.toNat + 1 :=
      Finset.le_sup (f := fun id : TaskId => id.toNat + 1) hmem
    exact UInt64.lt_iff_toNat_lt.2 (by omega)
  · cases hid
  · cases hid

/-- A store that was told that no number is left asks nobody any more. -/
theorem create_of_exhausted {first : Nat}
    (hnext : s.index.nextId.toNat = min (first + answers.length) Index.lastId.toNat)
    (htakes : ∀ n answer, answers[n]? = some answer → TakesNumber first n answer)
    (hmem : .error .idsExhausted ∈ answers) (moment : Moment) (links : List String) :
    s.create moment links = .done (.error .idsExhausted, s) := by
  obtain ⟨n, hn, hanswer⟩ := List.getElem_of_mem hmem
  have htake := htakes n _ (by rw [List.getElem?_eq_getElem hn, hanswer])
  rcases htake with ⟨-, ⟨task, htask, -⟩ | ⟨cause, hcause⟩⟩ | ⟨hle, -⟩
  · cases htask
  · cases hcause
  · exact create_of_lastId (UInt64.toNat_inj.1 (by omega))

end Lifetime

/-- The numbers that a store gives from the moment it was opened, on whatever log and whichever of
    its appends fail. The attempt after `n` others takes the number that is `n` above the first one,
    so none is given after it was taken in vain; the count stops at the greatest number, and who
    comes then is turned away without an access to the disk. The numbers that are given ascend, and
    all of them lie above those of the tasks that the log had and below the greatest. The tasks that
    there were are read as before, and take a result just if its append succeeds. -/
theorem attempts_take_numbers {log : Log} {d₀ d₁ : Disk} {now : Int} {s₀ : Store}
    (hopen : Ends Anything now (opened log).run d₀ (.ok s₀) d₁) :
    ∃ r, Ends Anything now log.replay.run d₀ (.ok r) d₁ ∧
      ∀ d s answers, Lifetime d₁ s₀ d s answers →
        s.index.nextId.toNat =
            min (s₀.index.nextId.toNat + answers.length) Index.lastId.toNat ∧
        (∀ n answer, answers[n]? = some answer → TakesNumber s₀.index.nextId.toNat n answer) ∧
        (answers.flatMap createdId).Pairwise (· < ·) ∧
        (∀ id ∈ answers.flatMap createdId, id < Index.lastId ∧
          ∀ e ∈ r.entries, ∀ task, e.change = .create task → task.id < id) ∧
        (.error .idsExhausted ∈ answers → ∀ moment links,
          s.create moment links = .done (.error .idsExhausted, s)) ∧
        (∀ id, s₀.index.tasks.contains id = true ∨ id ∈ answers.flatMap createdId →
          s.index.tasks.contains id = true) ∧
        ∀ id task, s.index.tasks.get? id = some task → s.get [id] = [task] ∧
          ∀ moment result answer s' d',
            Ends Anything moment.seconds (s.update moment id result) d (answer, s') d' →
            Ends Anything moment.seconds
                (s.log.append moment (updateEntry moment id result)).run d answer d' ∧
              s'.get [id] = [if answer.isOk = true then { task with result } else task] := by
  rcases ends_load hopen with ⟨r, hreplay, hr⟩ | ⟨e, he⟩
  · obtain rfl : s₀ = ⟨log, .ofEntries r.entries⟩ := Except.ok.inj hr
    refine ⟨r, hreplay, fun d s answers h => ?_⟩
    obtain ⟨hnext, htakes⟩ := h.takesNumbers
    refine ⟨hnext, htakes, (h.lifetimes hopen).increasing, fun id hid => ?_,
      create_of_exhausted hnext htakes, fun id hid => h.contains hid, fun id task htask => ?_⟩
    · obtain ⟨answer, hanswer, hid⟩ := List.mem_flatMap.1 hid
      obtain ⟨n, hn⟩ := List.mem_iff_getElem?.1 hanswer
      exact (htakes n answer hn).bounds hid
    · refine ⟨?_, fun moment result answer s' d' hends => select_of_update htask hends⟩
      show [id].filterMap s.index.tasks.get? = _
      rw [List.filterMap_cons, htask]
      rfl
  · cases he

/-- A log whose newest task is the third one from the greatest number. The first attempt fails, as
    the file cannot be opened. The second one gets the last number that there is, and the third one
    none. -/
theorem attempts_take_numbers_to_the_end :
    ∃ d₀ d₁ s₀, Ends Anything 0 (opened Log.foundLog).run d₀ (.ok s₀) d₁ ∧
      s₀.index.nextId = Index.lastId - 2 ∧ ∃ d s answers, Lifetime d₁ s₀ d s answers ∧
        answers.map (·.isOk) = [false, true, false] ∧
        answers.flatMap createdId = [Index.lastId - 1] ∧
        (∀ moment links, s.create moment links = .done (.error .idsExhausted, s)) ∧
        ∀ moment result answer s' d',
          Ends Anything moment.seconds (s.update moment (Index.lastId - 1) result) d (answer, s') d' →
          answer.isOk = true → ∃ task, task.result = result ∧ s'.get [Index.lastId - 1] = [task] := by
  let log := Log.foundLog
  let d₀ := Log.foundDisk [] (Log.Segment.line (Log.sampleEntry (Index.lastId - 3)))
  let moment := Log.sampleMoment 0
  let cannotOpen (r : Disk.Request) : Bool := r = .openAppend log.path
  obtain ⟨⟨x₀, d₁⟩, ⟨⟨a₁, s₁⟩, d₂⟩, ⟨⟨a₂, s₂⟩, d₃⟩, h₀, h₁, h₂, hok, hfails, hnext, hid, hlast⟩ :
      ∃ r₀ r₁ r₂,
        (opened log).run.run 0 d₀ = r₀ ∧
        ((r₀.1.toOption.getD (fresh log)).create moment []).runWithout cannotOpen .noSpace
          moment.seconds r₀.2 = r₁ ∧
        (r₁.1.2.create moment []).run moment.seconds r₁.2 = r₂ ∧
        r₀.1.isOk = true ∧ r₁.1.1.isOk = false ∧
        r₀.1.toOption.map (·.index.nextId) = some (Index.lastId - 2) ∧
        createdId r₂.1.1 = [Index.lastId - 1] ∧ r₂.1.2.index.nextId = Index.lastId :=
    ⟨_, _, _, rfl, rfl, rfl, by decide +kernel, by decide +kernel, by decide +kernel,
      by decide +kernel, by decide +kernel⟩
  cases x₀ with
  | error e => cases hok
  | ok s₀ =>
      have hopen := Disk.Program.ends_run Anything 0 (opened log).run d₀
      rw [h₀] at hopen
      have h₁ : (s₀.create moment []).runWithout cannotOpen .noSpace moment.seconds d₁
          = ((a₁, s₁), d₂) := h₁
      have hfirst : Ends Anything moment.seconds (s₀.create moment []) d₁ (a₁, s₁) d₂ := by
        have := Disk.Program.ends_runWithout cannotOpen .noSpace moment.seconds
          (s₀.create moment []) d₁
        rw [h₁] at this
        exact this.mono fun _ _ => trivial
      have hsecond : Ends Anything moment.seconds (s₁.create moment []) d₂ (a₂, s₂) d₃ := by
        have := Disk.Program.ends_run Anything moment.seconds (s₁.create moment []) d₂
        rwa [h₂] at this
      have hthird : Ends Anything moment.seconds (s₂.create moment []) d₃
          (.error .idsExhausted, s₂) d₃ := by
        rw [create_of_lastId hlast]
        exact .done _ _
      have hlife : Lifetime d₁ s₀ d₃ s₂ [a₁, a₂, .error .idsExhausted] :=
        .created (.created (.created .begun hfirst) hsecond) hthird
      obtain ⟨r, -, hlaw⟩ := attempts_take_numbers hopen
      obtain ⟨-, -, -, -, hexhausted, hknown, hupdate⟩ := hlaw _ _ _ hlife
      have hids : [a₁, a₂, .error .idsExhausted].flatMap createdId = [Index.lastId - 1] := by
        cases a₁ with
        | ok task => cases hfails
        | error e => exact (List.append_nil _).trans hid
      have hsucceeds : a₂.isOk = true := by
        cases a₂ with
        | ok task => rfl
        | error e => cases hid
      have hthere := hknown (Index.lastId - 1) (.inr (hids ▸ List.mem_singleton_self _))
      obtain ⟨task, htask⟩ := Table.contains_iff.1 hthere
      refine ⟨d₀, d₁, s₀, hopen, Option.some.inj hnext, d₃, s₂, _, hlife,
        by rw [List.map_cons, List.map_cons, hfails, hsucceeds]; rfl, hids,
        hexhausted (by simp), fun now result answer s' d' hends hanswer => ?_⟩
      obtain ⟨-, hget⟩ := (hupdate _ task htask).2 now result answer s' d' hends
      rw [if_pos hanswer] at hget
      exact ⟨_, rfl, hget⟩

end Reachability.Store
