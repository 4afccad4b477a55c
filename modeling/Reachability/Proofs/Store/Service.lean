import Reachability.Proofs.Log.Room
import Reachability.Proofs.Permits
import Reachability.Proofs.Store.Basic
import Reachability.Store.Service

set_option autoImplicit false

/-! # Visits to a store

A call that changes a store passes the front, waits for the writer's lock, writes its line and makes
the change visible; `Moves` lists all that one step of it can do. Between the line and the moment at
which the change is visible, the log is one entry ahead of the index; otherwise the two agree
(`Books`). -/

namespace Reachability

/-- A front that answers calls only to refuse them. -/
def StoreFront.Refuses (front : StoreFront) : Prop :=
  ∀ calls call d, front.answer calls call = some d → ∃ e, d.value = .error e

namespace StoreService

open Disk (Place)

/-! ## One step -/

/-- What one step of a visit can do. -/
inductive Moves (front : StoreFront) (moment : Moment) (now : Nat) (key : TaskKey)
    (s : StoreService) : Visit → StoreService → Visit → Prop where
  | refused {call : StoreCall} {d : Delayed StoreAnswer}
      (before : front.answer (s.receipts.map (·.call)) call = some d) :
      Moves front moment now key s (.arriving call)
        { s with receipts := ⟨now, call, some d.value⟩ :: s.receipts }
        (.delayed d.value (d.finish now))
  | looked {ids : List TaskId}
      (through : front.answer (s.receipts.map (·.call)) (.read ids) = none) :
      Moves front moment now key s (.arriving (.read ids))
        { s with receipts := ⟨now, .read ids, none⟩ :: s.receipts }
        (.answered (.ok (.tasks (s.store.get ids))))
  | admitted {call : StoreCall} (through : front.answer (s.receipts.map (·.call)) call = none)
      (changes : ∀ ids, call ≠ .read ids) :
      Moves front moment now key s (.arriving call)
        { s with
          receipts := ⟨now, call, none⟩ :: s.receipts
          writer := s.writer.request key }
        (.inLine call)
  | told {answer : StoreAnswer} {finish : Option Nat} :
      Moves front moment now key s (.delayed answer finish) s (.answered answer)
  | reserved {links : List String} (left : s.store.index.nextId ≠ Index.lastId) :
      Moves front moment now key s (.inLine (.create links)) { s with store := s.store.reserved }
        (.writing (.create (s.store.nextTask links)))
  | exhausted {links : List String} (last : s.store.index.nextId = Index.lastId) :
      Moves front moment now key s (.inLine (.create links))
        { s with writer := s.writer.release key } (.answered (.error .idsExhausted))
  | known {id : TaskId} {result : Results} (known : s.store.index.tasks.contains id = true) :
      Moves front moment now key s (.inLine (.update id result)) s (.writing (.update id result))
  | unknown {id : TaskId} {result : Results}
      (unknown : s.store.index.tasks.contains id = false) :
      Moves front moment now key s (.inLine (.update id result))
        { s with writer := s.writer.release key } (.answered (.error (.notFound id)))
  | lookedLate {ids : List TaskId} :
      Moves front moment now key s (.inLine (.read ids))
        { s with writer := s.writer.release key }
        (.answered (.ok (.tasks (s.store.get ids))))
  | wrote {change : Pending} {outcome : Except StoreError Unit} {disk : Disk}
      (run : (s.store.log.append moment (change.entry moment)).run.run moment.seconds s.disk
        = (outcome, disk)) :
      Moves front moment now key s (.writing change) { s with disk } (.written change outcome)
  | settled {change : Pending} :
      Moves front moment now key s (.written change (.ok ()))
        { s with store := change.publish s.store, writer := s.writer.release key }
        (.answered (.ok change.reply))
  | failed {change : Pending} {e : StoreError} :
      Moves front moment now key s (.written change (.error e))
        { s with writer := s.writer.release key } (.answered (.error e))
  | ended {answer : StoreAnswer} :
      Moves front moment now key s (.answered answer) s (.answered answer)

theorem moves_step (front : StoreFront) (moment : Moment) (now : Nat) (key : TaskKey)
    (s : StoreService) (visit : Visit) :
    Moves front moment now key s visit (s.step front moment now key visit).1
      (s.step front moment now key visit).2 := by
  cases visit with
  | arriving call =>
      simp only [step, receive]
      cases hfront : front.answer (s.receipts.map (·.call)) call with
      | some d => exact .refused hfront
      | none =>
          cases call with
          | create links => exact .admitted hfront nofun
          | update id result => exact .admitted hfront nofun
          | read ids => exact .looked hfront
  | delayed answer finish => exact .told
  | inLine call =>
      cases call with
      | create links =>
          simp only [step, prepare, Store.reserve?_eq]
          by_cases hlast : s.store.index.nextId = Index.lastId
          · rw [if_pos hlast]
            exact .exhausted hlast
          · rw [if_neg hlast]
            exact .reserved hlast
      | update id result =>
          simp only [step, prepare]
          split
          · next hknown => exact .known hknown
          · next hunknown => exact .unknown (Bool.eq_false_iff.2 hunknown)
      | read ids => exact .lookedLate
  | writing change => exact .wrote rfl
  | written change outcome =>
      cases outcome with
      | ok u => exact .settled
      | error e => exact .failed
  | answered answer => exact .ended

/-! ## The lock -/

namespace Visit

/-- Whether a visit has the writer's lock or waits for it. -/
def isInside : Visit → Bool
  | .inLine _ => true
  | .writing _ => true
  | .written .. => true
  | _ => false

/-- Whether a visit is at its end. -/
def isAnswered : Visit → Bool
  | .answered _ => true
  | _ => false

/-- Whether a visit changes the disk or the index, which takes the lock. -/
def isWriting : Visit → Bool
  | .writing _ => true
  | .written .. => true
  | _ => false

/-- How many steps a visit can still take. -/
def rank : Visit → Nat
  | .arriving _ => 4
  | .inLine _ => 3
  | .writing _ => 2
  | .written .. => 1
  | .delayed .. => 1
  | .answered _ => 0

/-- The links of the task that a visit is about to create or has created. -/
def links : Visit → List String
  | .arriving (.create links) => links
  | .delayed (.ok (.task task)) _ => task.links
  | .inLine (.create links) => links
  | .writing (.create task) => task.links
  | .written (.create task) _ => task.links
  | .answered (.ok (.task task)) => task.links
  | _ => []

end Visit

section Moves

variable {front : StoreFront} {moment : Moment} {now : Nat} {key : TaskKey}
  {s s' : StoreService} {visit visit' : Visit}

/-- A visit nears its end with each step. -/
theorem Moves.rank_lt (h : Moves front moment now key s visit s' visit')
    (hgoing : visit.isAnswered = false) : visit'.rank < visit.rank := by
  cases h <;> first | exact Nat.lt_of_sub_eq_succ rfl | cases hgoing

/-- No call is forgotten. -/
theorem Moves.length_receipts_le (h : Moves front moment now key s visit s' visit') :
    s.receipts.length ≤ s'.receipts.length := by
  cases h with
  | refused => exact Nat.le_succ _
  | looked => exact Nat.le_succ _
  | admitted => exact Nat.le_succ _
  | _ => exact Nat.le_refl _

/-- A visit past a front that only refuses calls does not add links. -/
theorem Moves.links_length_le (h : Moves front moment now key s visit s' visit')
    (refuses : front.Refuses) : visit'.links.length ≤ visit.links.length := by
  cases h with
  | @refused call d before =>
      obtain ⟨e, he⟩ := refuses _ _ _ before
      rw [he]
      exact Nat.zero_le _
  | looked => exact Nat.zero_le _
  | @admitted call => cases call <;> exact Nat.le_refl _
  | @told answer finish =>
      match answer with
      | .ok (.task task) => exact Nat.le_refl _
      | .ok .stored => exact Nat.le_refl _
      | .ok (.tasks _) => exact Nat.le_refl _
      | .error _ => exact Nat.le_refl _
  | reserved => exact Nat.le_refl _
  | exhausted => exact Nat.zero_le _
  | known => exact Nat.le_refl _
  | unknown => exact Nat.le_refl _
  | lookedLate => exact Nat.le_refl _
  | @wrote change => cases change <;> exact Nat.le_refl _
  | @settled change => cases change <;> exact Nat.le_refl _
  | failed => exact Nat.zero_le _
  | ended => exact Nat.le_refl _

theorem Visit.isInside_of_isWriting {visit : Visit} (h : visit.isWriting = true) :
    visit.isInside = true := by
  cases visit <;> first | rfl | cases h

/-- What a step does to the lock. -/
theorem Moves.passes (h : Moves front moment now key s visit s' visit')
    (ready : visit.isInside = true → s.writer.holds key = true) :
    s.writer.Passes key (visit.isInside = true) (visit'.isInside = true)
      (visit'.isWriting = true) s'.writer := by
  cases h
  case admitted => exact .enters Bool.false_ne_true rfl Bool.false_ne_true
  case reserved | known | wrote => exact .inside rfl rfl (ready rfl)
  case exhausted | unknown | lookedLate | settled | failed =>
    exact .leaves rfl Bool.false_ne_true (ready rfl)
  all_goals exact .outside Bool.false_ne_true Bool.false_ne_true

/-- The lock serves the visits that are inside, and those that write have it. -/
abbrev Guarded (s : StoreService) (visits : TaskKey → Option Visit) : Prop :=
  s.writer.Guards (fun key => (visits key).any Visit.isInside = true)
    fun key => (visits key).any Visit.isWriting = true

/-- A visit inside has the lock, if it does not wait for it. -/
theorem Guarded.holds_of_isInside {visits : TaskKey → Option Visit} (h : Guarded s visits)
    (hvisit : visits key = some visit)
    (ready : ∀ call, visit = .inLine call → s.writer.holds key = true)
    (hinside : visit.isInside = true) : s.writer.holds key = true := by
  have hwriting : visit.isWriting = true → s.writer.holds key = true := by
    intro hwriting
    refine h.holds key ?_
    rw [hvisit, Option.any_some, hwriting]
  cases visit with
  | inLine call => exact ready call rfl
  | writing change => exact hwriting rfl
  | written change outcome => exact hwriting rfl
  | _ => cases hinside

/-- A visit that has the lock if it is inside keeps the lock in order. -/
theorem Guarded.step {visits visits' : TaskKey → Option Visit} (h : Guarded s visits)
    (hmoves : Moves front moment now key s visit s' visit') (hvisit : visits key = some visit)
    (ready : visit.isInside = true → s.writer.holds key = true) (hself : visits' key = some visit')
    (hothers : ∀ other, other ≠ key → visits' other = visits other) : Guarded s' visits' := by
  refine Permits.Guards.step h key ?_ (fun hwriting => ?_) fun other hne => ?_
  · rw [hvisit, hself]
    exact hmoves.passes ready
  · rw [hself] at hwriting ⊢
    exact Visit.isInside_of_isWriting hwriting
  · rw [hothers other hne]
    exact ⟨Iff.rfl, id⟩

end Moves

end StoreService

end Reachability
