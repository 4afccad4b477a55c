import Reachability.Proofs.Store.Books

set_option autoImplicit false

/-! # The account of a task

What is said about one task: the calls that were to store its result, and the lines about it in the
log. The front may refuse calls. So a task has a line that creates it, a number of calls that were
refused, and then at most one call that was let through, which adds the second line
(`Account`). A visitor that creates a task or stores a result moves the account of that task only
(`Moves.frame`). -/

namespace Reachability

/-- Whether a call is to store the result of a task. -/
def StoreCall.updates (id : TaskId) : StoreCall → Bool
  | .update id' _ => id' == id
  | _ => false

namespace StoreService

/-- The calls that were to store the result of a task, the first one first. -/
def updatesOf (s : StoreService) (id : TaskId) : List StoreReceipt :=
  (s.receipts.filter (·.call.updates id)).reverse

/-- Calls that were to store a result: a number of them were refused, and then one was let through,
    or none. -/
inductive Tally (id : TaskId) (result : Results) : Nat → Bool → List StoreReceipt → Prop where
  | nothing : Tally id result 0 false []
  | refused {n : Nat} {rs : List StoreReceipt} (h : Tally id result n false rs) (time : Nat)
      (e : StoreError) :
      Tally id result (n + 1) false (rs ++ [⟨time, .update id result, some (.error e)⟩])
  | through {n : Nat} {rs : List StoreReceipt} (h : Tally id result n false rs) (time : Nat) :
      Tally id result n true (rs ++ [⟨time, .update id result, none⟩])

namespace Tally

variable {id : TaskId} {result : Results} {n : Nat} {through : Bool} {rs : List StoreReceipt}

theorem length_eq (h : Tally id result n through rs) : rs.length = n + through.toNat := by
  induction h with
  | nothing => rfl
  | refused h time e ih =>
      rw [List.length_append, ih]
      rfl
  | through h time ih =>
      rw [List.length_append, ih]
      rfl

theorem call_eq (h : Tally id result n through rs) : ∀ r ∈ rs, r.call = .update id result := by
  induction h with
  | nothing => exact List.forall_mem_nil _
  | refused h time e ih =>
      exact List.forall_mem_append.2 ⟨ih, List.forall_mem_singleton.2 rfl⟩
  | through h time ih => exact List.forall_mem_append.2 ⟨ih, List.forall_mem_singleton.2 rfl⟩

/-- Just the call after those that were refused was let through, if any. -/
theorem answer_eq_none_iff (h : Tally id result n through rs) {i : Nat} {r : StoreReceipt}
    (hr : rs[i]? = some r) : r.answer = none ↔ through = true ∧ i = n := by
  -- The call that came last, or one of those before it.
  have hlast : ∀ {n : Nat} {rs : List StoreReceipt} {last : StoreReceipt},
      Tally id result n false rs → (rs ++ [last])[i]? = some r →
      (i < n ∧ rs[i]? = some r) ∨ (i = n ∧ r = last) := by
    intro n rs last h hr
    have hlen : rs.length = n := h.length_eq
    rw [List.getElem?_append, hlen] at hr
    split at hr
    · next hlt => exact .inl ⟨hlt, hr⟩
    · next hle =>
      rw [List.getElem?_singleton] at hr
      split at hr
      · exact .inr ⟨by omega, (Option.some.inj hr).symm⟩
      · cases hr
  induction h with
  | nothing => cases hr
  | refused h time e ih =>
      rcases hlast h hr with ⟨-, hold⟩ | ⟨-, rfl⟩
      · refine (ih hold).trans ⟨fun hboth => ?_, fun hboth => ?_⟩
        · exact absurd hboth.1 Bool.false_ne_true
        · exact absurd hboth.1 Bool.false_ne_true
      · exact ⟨nofun, fun hboth => absurd hboth.1 Bool.false_ne_true⟩
  | through h time ih =>
      rcases hlast h hr with ⟨hlt, hold⟩ | ⟨rfl, rfl⟩
      · refine (ih hold).trans ⟨fun hboth => ?_, fun hboth => ?_⟩
        · exact absurd hboth.1 Bool.false_ne_true
        · exact absurd hboth.2 (Nat.ne_of_lt hlt)
      · exact ⟨fun _ => ⟨rfl, rfl⟩, fun _ => rfl⟩

/-- A call was refused just if the first one was. -/
theorem pos_iff (h : Tally id result n through rs) :
    0 < n ↔ ∃ r, rs[0]? = some r ∧ r.answer.isSome = true := by
  have hlength := h.length_eq
  constructor
  · intro hpos
    have hlt : 0 < rs.length := by omega
    have hr := List.getElem?_eq_getElem hlt
    refine ⟨_, hr, Option.isSome_iff_ne_none.2 fun hnone => ?_⟩
    have hzero := ((h.answer_eq_none_iff hr).1 hnone).2
    omega
  · rintro ⟨r, hr, hsome⟩
    have hlt := (List.getElem?_eq_some_iff.1 hr).1
    refine Nat.pos_of_ne_zero fun hzero => ?_
    have hthrough : through = true := by
      cases through with
      | true => rfl
      | false =>
          rw [hlength, hzero] at hlt
          cases hlt
    rw [(h.answer_eq_none_iff hr).2 ⟨hthrough, hzero.symm⟩] at hsome
    cases hsome

end Tally

/-- The account of a task: `refused` calls were refused, one was let through after that or none, and
    the result was stored or not. -/
structure Account (s : StoreService) (published : List Log.Entry) (task : Task) (result : Results)
    (refused : Nat) (through stored : Bool) : Prop where
  calls : Tally task.id result refused through (s.updatesOf task.id)
  lines : (published.filter (Index.concerns task.id)).map (·.change) =
    .create task :: if stored = true then [.update task.id result] else []

/-- Nothing is known of a task. -/
structure Unheard (s : StoreService) (published : List Log.Entry) (id : TaskId) : Prop where
  calls : s.updatesOf id = []
  lines : published.filter (Index.concerns id) = []

/-! ## What the index has of a task -/

section Index

variable {s s' : StoreService} {published published' : List Log.Entry} {task : Task}
  {result : Results} {n : Nat} {through stored : Bool}

theorem Account.get? (h : Account s published task result n through stored) :
    (Index.ofEntries published).tasks.get? task.id =
      some (if stored = true then { task with result } else task) := by
  rw [Index.get?_ofEntries]
  have hfold : ∀ es : List Log.Entry, Index.ofEntries es
      = (es.map (·.change)).foldl Index.apply Index.initial := fun es => by
    rw [List.foldl_map]
    rfl
  rw [hfold, h.lines]
  cases stored with
  | false =>
      show (Index.initial.tasks.insert task.id task).get? task.id = some task
      rw [Table.get?_insert, if_pos rfl]
  | true =>
      show (Index.setResult (Index.initial.tasks.insert task.id task) task.id result).get? task.id
        = some { task with result }
      rw [Index.get?_setResult, if_pos rfl, Table.get?_insert, if_pos rfl, Option.map_some]

theorem Account.congr (h : Account s published task result n through stored)
    (calls : s'.updatesOf task.id = s.updatesOf task.id)
    (lines : published'.filter (Index.concerns task.id)
      = published.filter (Index.concerns task.id)) :
    Account s' published' task result n through stored :=
  ⟨calls ▸ h.calls, lines ▸ h.lines⟩

theorem Unheard.congr {id : TaskId} (h : Unheard s published id)
    (calls : s'.updatesOf id = s.updatesOf id)
    (lines : published'.filter (Index.concerns id) = published.filter (Index.concerns id)) :
    Unheard s' published' id :=
  ⟨calls.trans h.calls, lines.trans h.lines⟩

theorem updatesOf_cons (s : StoreService) (r : StoreReceipt) (id : TaskId) :
    ({ s with receipts := r :: s.receipts } : StoreService).updatesOf id =
      if r.call.updates id = true then s.updatesOf id ++ [r] else s.updatesOf id := by
  unfold updatesOf
  rw [List.filter_cons]
  split
  · rw [List.reverse_cons]
  · rfl

end Index

/-! ## What a visitor is about -/

/-- The task of a change. -/
def Pending.id : Pending → TaskId
  | .create task => task.id
  | .update id _ => id

theorem concerns_entry (change : Pending) (moment : Moment) (id : TaskId) :
    Index.concerns id (change.entry moment) = (change.id == id) := by
  cases change <;> rfl

/-- Whether a visitor is about to add to the account of a task. -/
def Visit.touches (id : TaskId) : Visit → Bool
  | .arriving call => call.updates id
  | .written change _ => change.id == id
  | _ => false

section Moves

variable {front : StoreFront} {moment : Moment} {now : Nat} {key : TaskKey}
  {s s' : StoreService} {visit visit' : Visit} {published published' : List Log.Entry}

/-- A step adds to the account of one task at most. -/
theorem Moves.frame (hmoves : Moves front moment now key s visit s' visit')
    (hpublishes : Publishes published visit published') {id : TaskId}
    (hid : visit.touches id = false) :
    s'.updatesOf id = s.updatesOf id ∧
      published'.filter (Index.concerns id) = published.filter (Index.concerns id) := by
  constructor
  · cases hmoves
    case refused | looked | admitted =>
      exact (updatesOf_cons s _ id).trans (if_neg (Bool.eq_false_iff.1 hid))
    all_goals rfl
  · cases hpublishes with
    | nothing => rfl
    | change change moment =>
        have hout : Index.concerns id (change.entry moment) = false :=
          (concerns_entry change moment id).trans hid
        rw [List.filter_append, List.filter_cons_of_neg (Bool.eq_false_iff.1 hout), List.filter_nil,
          List.append_nil]

end Moves

/-! ## Storing a result -/

/-- How the account of a task stands while a visitor is there to store its result, after `n` calls
    that were refused. -/
def Updating (s : StoreService) (published : List Log.Entry) (task : Task) (result : Results)
    (n : Nat) : Visit → Prop
  | .arriving call => call = .update task.id result ∧ Account s published task result n false false
  | .delayed answer _ => (∃ e, answer = .error e) ∧
      Account s published task result (n + 1) false false
  | .inLine call => call = .update task.id result ∧ Account s published task result n true false
  | .writing change => change = .update task.id result ∧
      Account s published task result n true false
  | .written change outcome => change = .update task.id result ∧ outcome = .ok () ∧
      Account s published task result n true false
  | .answered (.ok _) => Account s published task result n true true
  | .answered (.error _) => Account s published task result (n + 1) false false

section Updating

variable {front : StoreFront} {moment : Moment} {now : Nat} {key : TaskKey}
  {s s' : StoreService} {visit visit' : Visit} {published published' : List Log.Entry}
  {task : Task} {result : Results} {n : Nat}

theorem Updating.congr (h : Updating s published task result n visit)
    (calls : s'.updatesOf task.id = s.updatesOf task.id)
    (lines : published'.filter (Index.concerns task.id)
      = published.filter (Index.concerns task.id)) :
    Updating s' published' task result n visit := by
  cases visit with
  | arriving call => exact ⟨h.1, h.2.congr calls lines⟩
  | delayed answer finish => exact ⟨h.1, h.2.congr calls lines⟩
  | inLine call => exact ⟨h.1, h.2.congr calls lines⟩
  | writing change => exact ⟨h.1, h.2.congr calls lines⟩
  | written change outcome => exact ⟨h.1, h.2.1, h.2.2.congr calls lines⟩
  | answered answer =>
      cases answer with
      | ok reply => exact Account.congr h calls lines
      | error e => exact Account.congr h calls lines

/-- Who stores a result touches the account of its own task only. -/
theorem Updating.touches (h : Updating s published task result n visit) {id : TaskId}
    (hne : id ≠ task.id) : visit.touches id = false := by
  cases visit with
  | arriving call =>
      rw [h.1]
      exact beq_eq_false_iff_ne.2 hne.symm
  | written change outcome =>
      rw [h.1]
      exact beq_eq_false_iff_ne.2 hne.symm
  | _ => rfl

/-- Who stores a result takes no number. -/
theorem Updating.nextId_eq (h : Updating s published task result n visit)
    (hmoves : Moves front moment now key s visit s' visit') :
    s'.store.index.nextId = s.store.index.nextId := by
  cases hmoves
  case reserved => cases h.1
  case settled =>
    obtain ⟨rfl, -⟩ := h
    rfl
  all_goals rfl

/-- Wherever the visitor is, some calls were refused and at most one was let through. -/
theorem Updating.account (h : Updating s published task result n visit) :
    ∃ n' through stored, n ≤ n' ∧ Account s published task result n' through stored := by
  cases visit with
  | arriving call => exact ⟨n, _, _, Nat.le_refl n, h.2⟩
  | delayed answer finish => exact ⟨n + 1, _, _, Nat.le_succ n, h.2⟩
  | inLine call => exact ⟨n, _, _, Nat.le_refl n, h.2⟩
  | writing change => exact ⟨n, _, _, Nat.le_refl n, h.2⟩
  | written change outcome => exact ⟨n, _, _, Nat.le_refl n, h.2.2⟩
  | answered answer =>
      cases answer with
      | ok reply => exact ⟨n, _, _, Nat.le_refl n, h⟩
      | error e => exact ⟨n + 1, _, _, Nat.le_succ n, h⟩

theorem updates_self (id : TaskId) (result : Results) :
    StoreCall.updates id (.update id result) = true := beq_self_eq_true id

/-- A step of a visitor that stores a result keeps the account of its task. -/
theorem Updating.step (h : Updating s published task result n visit)
    (hmoves : Moves front moment now key s visit s' visit') (refuses : front.Refuses)
    (hpublishes : Publishes published visit published')
    (tasks : s.store.index.tasks = (Index.ofEntries published).tasks)
    (hwritten : ∀ change outcome, visit' = .written change outcome → outcome = .ok ()) :
    Updating s' published' task result n visit' := by
  have hknown : ∀ {through : Bool}, Account s published task result n through false →
      s.store.index.tasks.contains task.id = true := by
    intro through haccount
    rw [tasks]
    exact Table.contains_iff.2 ⟨task, haccount.get?⟩
  cases hmoves with
  | @refused call d before =>
      cases hpublishes
      obtain ⟨rfl, haccount⟩ := h
      obtain ⟨e, he⟩ := refuses _ _ _ before
      refine ⟨⟨e, he⟩, ?_, haccount.lines⟩
      rw [updatesOf_cons, if_pos (updates_self ..), he]
      exact haccount.calls.refused now e
  | looked => cases h.1
  | @admitted call through changes =>
      cases hpublishes
      obtain ⟨rfl, haccount⟩ := h
      refine ⟨rfl, ?_, haccount.lines⟩
      have hcalls := updatesOf_cons s ⟨now, .update task.id result, none⟩ task.id
      rw [if_pos (updates_self ..)] at hcalls
      exact hcalls ▸ haccount.calls.through now
  | told =>
      cases hpublishes
      obtain ⟨⟨e, rfl⟩, haccount⟩ := h
      exact haccount
  | reserved => cases h.1
  | exhausted => cases h.1
  | known =>
      cases hpublishes
      obtain ⟨he, haccount⟩ := h
      cases he
      exact ⟨rfl, haccount⟩
  | unknown hunknown =>
      obtain ⟨he, haccount⟩ := h
      cases he
      rw [hknown haccount] at hunknown
      cases hunknown
  | lookedLate => cases h.1
  | wrote run =>
      cases hpublishes
      exact ⟨h.1, hwritten _ _ rfl, h.2.calls, h.2.lines⟩
  | settled =>
      obtain ⟨rfl, -, haccount⟩ := h
      cases hpublishes with
      | nothing hnot => exact absurd ⟨_, _, rfl⟩ hnot
      | change _ moment =>
          refine ⟨haccount.calls, ?_⟩
          have hmine : Index.concerns task.id
              ((Pending.update task.id result).entry moment) = true :=
            (concerns_entry _ _ _).trans (beq_self_eq_true _)
          rw [List.filter_append, List.filter_cons_of_pos hmine, List.filter_nil, List.map_append,
            haccount.lines]
          rfl
  | failed => cases h.2.1
  | ended =>
      cases hpublishes
      exact h

end Updating

/-! ## Creating a task -/

/-- How the account of a task stands while a visitor is there to create it. -/
def Creating (s : StoreService) (published : List Log.Entry) : Visit → Prop
  | .arriving call => ∃ links, call = .create links
  | .delayed answer _ => ∃ e, answer = .error e
  | .inLine call => ∃ links, call = .create links
  | .writing change => ∃ task, change = .create task ∧ task.result = .empty ∧
      Unheard s published task.id
  | .written change outcome => ∃ task, change = .create task ∧ outcome = .ok () ∧
      task.result = .empty ∧ Unheard s published task.id
  | .answered (.ok reply) => ∃ task, reply = .task task ∧ task.result = .empty ∧
      ∀ result, Account s published task result 0 false false
  | .answered (.error _) => True

/-- The number of the task that a visitor creates, once it is known. -/
def Visit.created? : Visit → Option TaskId
  | .writing (.create task) => some task.id
  | .written (.create task) _ => some task.id
  | .answered (.ok (.task task)) => some task.id
  | _ => none

section Creating

variable {front : StoreFront} {moment : Moment} {now : Nat} {key : TaskKey}
  {s s' : StoreService} {visit visit' : Visit} {published published' : List Log.Entry}

theorem Creating.congr (h : Creating s published visit)
    (calls : ∀ id, visit.created? = some id → s'.updatesOf id = s.updatesOf id)
    (lines : ∀ id, visit.created? = some id →
      published'.filter (Index.concerns id) = published.filter (Index.concerns id)) :
    Creating s' published' visit := by
  cases visit with
  | arriving call => exact h
  | delayed answer finish => exact h
  | inLine call => exact h
  | writing change =>
      obtain ⟨task, rfl, hempty, hunheard⟩ := h
      exact ⟨task, rfl, hempty, hunheard.congr (calls _ rfl) (lines _ rfl)⟩
  | written change outcome =>
      obtain ⟨task, rfl, hok, hempty, hunheard⟩ := h
      exact ⟨task, rfl, hok, hempty, hunheard.congr (calls _ rfl) (lines _ rfl)⟩
  | answered answer =>
      cases answer with
      | ok reply =>
          obtain ⟨task, rfl, hempty, haccount⟩ := h
          exact ⟨task, rfl, hempty, fun result =>
            (haccount result).congr (calls _ rfl) (lines _ rfl)⟩
      | error e => exact trivial

/-- Nothing is known of the number of a task until its visitor has been told. -/
theorem Creating.told_or_unheard (h : Creating s published visit) {id : TaskId}
    (hid : visit.created? = some id) :
    (∃ task : Task, visit = .answered (.ok (.task task)) ∧ task.id = id) ∨
      Unheard s published id := by
  cases visit with
  | writing change =>
      obtain ⟨task, rfl, -, hunheard⟩ := h
      obtain rfl : task.id = id := Option.some.inj hid
      exact .inr hunheard
  | written change outcome =>
      obtain ⟨task, rfl, -, -, hunheard⟩ := h
      obtain rfl : task.id = id := Option.some.inj hid
      exact .inr hunheard
  | answered answer =>
      cases answer with
      | ok reply =>
          obtain ⟨task, rfl, -⟩ := h
          exact .inl ⟨task, rfl, Option.some.inj hid⟩
      | error e => cases hid
  | _ => cases hid

/-- Who creates a task touches the account of that task only. -/
theorem Creating.touches (h : Creating s published visit) {id : TaskId}
    (hne : visit.created? ≠ some id) : visit.touches id = false := by
  cases visit with
  | arriving call =>
      obtain ⟨links, rfl⟩ := h
      rfl
  | written change outcome =>
      obtain ⟨task, rfl, -⟩ := h
      exact beq_eq_false_iff_ne.2 fun he => hne (congrArg some he)
  | _ => rfl

/-- The number of a task stays the same once it is known; the step that finds it takes the next
    one. -/
theorem Creating.created?_cases (h : Creating s published visit)
    (hmoves : Moves front moment now key s visit s' visit') :
    (visit'.created? = visit.created? ∧ s'.store.index.nextId = s.store.index.nextId) ∨
      (visit.created? = none ∧ visit'.created? = some s.store.index.nextId ∧
        s.store.index.nextId ≠ Index.lastId ∧
        s'.store.index.nextId = Index.idAfter s.store.index.nextId) := by
  cases hmoves with
  | refused => exact .inl ⟨rfl, rfl⟩
  | looked => exact .inl ⟨rfl, rfl⟩
  | admitted => exact .inl ⟨rfl, rfl⟩
  | told =>
      obtain ⟨e, rfl⟩ := h
      exact .inl ⟨rfl, rfl⟩
  | reserved left =>
      refine .inr ⟨rfl, rfl, left, ?_⟩
      rw [Index.idAfter, if_neg left]
      rfl
  | exhausted => exact .inl ⟨rfl, rfl⟩
  | known =>
      obtain ⟨links, hlinks⟩ := h
      cases hlinks
  | unknown => exact .inl ⟨rfl, rfl⟩
  | lookedLate =>
      obtain ⟨links, hlinks⟩ := h
      cases hlinks
  | wrote =>
      obtain ⟨task, rfl, -⟩ := h
      exact .inl ⟨rfl, rfl⟩
  | settled =>
      obtain ⟨task, rfl, -⟩ := h
      exact .inl ⟨rfl, rfl⟩
  | failed =>
      obtain ⟨task, -, hok, -⟩ := h
      cases hok
  | ended => exact .inl ⟨rfl, rfl⟩

/-- A step of a visitor that creates a task opens the account of the task. -/
theorem Creating.step (h : Creating s published visit)
    (hmoves : Moves front moment now key s visit s' visit') (refuses : front.Refuses)
    (hpublishes : Publishes published visit published')
    (fresh : Unheard s published s.store.index.nextId)
    (hwritten : ∀ change outcome, visit' = .written change outcome → outcome = .ok ()) :
    Creating s' published' visit' := by
  cases hmoves with
  | @refused call d before =>
      obtain ⟨e, he⟩ := refuses _ _ _ before
      exact ⟨e, he⟩
  | looked =>
      obtain ⟨links, hlinks⟩ := h
      cases hlinks
  | admitted => exact h
  | told =>
      obtain ⟨e, rfl⟩ := h
      exact trivial
  | reserved =>
      cases hpublishes
      exact ⟨_, rfl, rfl, fresh.calls, fresh.lines⟩
  | exhausted => exact trivial
  | known =>
      obtain ⟨links, hlinks⟩ := h
      cases hlinks
  | unknown => exact trivial
  | lookedLate =>
      obtain ⟨links, hlinks⟩ := h
      cases hlinks
  | wrote run =>
      cases hpublishes
      obtain ⟨task, rfl, hempty, hunheard⟩ := h
      exact ⟨task, rfl, hwritten _ _ rfl, hempty, hunheard.calls, hunheard.lines⟩
  | settled =>
      obtain ⟨task, rfl, -, hempty, hunheard⟩ := h
      cases hpublishes with
      | nothing hnot => exact absurd ⟨_, _, rfl⟩ hnot
      | change _ moment =>
          refine ⟨task, rfl, hempty, fun result => ⟨?_, ?_⟩⟩
          · have hcalls := hunheard.calls
            show Tally task.id result 0 false (s.updatesOf task.id)
            rw [hcalls]
            exact .nothing
          · have hmine : Index.concerns task.id ((Pending.create task).entry moment) = true :=
              (concerns_entry _ _ _).trans (beq_self_eq_true _)
            rw [List.filter_append, List.filter_cons_of_pos hmine, List.filter_nil,
              hunheard.lines]
            rfl
  | failed => exact trivial
  | ended =>
      cases hpublishes
      exact h

end Creating

end StoreService

end Reachability
