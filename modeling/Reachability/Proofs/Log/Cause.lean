import Reachability.Proofs.Log.Action

set_option autoImplicit false

/-! # Why an append fails

Whichever of its accesses fail, an append that fails tells what kept it from the disk. It never
answers what the store answers for itself, and never that the log is damaged, as it reads no
entries. -/

namespace Reachability

namespace Disk.Program

variable {α β : Type}

/-- Whether every value that a program may end with is of a kind, whatever the answers are. -/
def Yields (Q : α → Prop) : Program α → Prop
  | done a => Q a
  | access _ next => ∀ answer, (next answer).Yields Q

theorem Yields.bind {Q : α → Prop} {R : β → Prop} {p : Program α} {f : α → Program β}
    (hp : p.Yields Q) (hf : ∀ a, Q a → (f a).Yields R) : (p.bind f).Yields R := by
  induction p with
  | done a => exact hf a hp
  | access r next ih => exact fun answer => ih answer (hp answer)

theorem Yields.of_ends {Q : α → Prop} {P : Request → Prop} {now : Int} {p : Program α}
    {d d' : Disk} {a : α} (hp : p.Yields Q) (h : Ends P now p d a d') : Q a := by
  induction h with
  | done a d => exact hp
  | performed h ih => exact ih (hp _)
  | failed hr f hpart h ih => exact ih (hp _)

end Disk.Program

namespace Log

open Disk (Request)
open Disk.Program (Ends Yields)

/-- Whether an answer, if it is an error, is one of reading or writing the log. -/
def TellsCause {α : Type} (answer : Except StoreError α) : Prop :=
  ∀ e, answer = .error e → ∃ cause, e = .log cause

namespace Action

variable {α β : Type} {x : Action α} {f : α → Action β}

theorem tellsCause_ok (a : α) : TellsCause (.ok a) := nofun

theorem tellsCause_error (cause : LogFailure) : TellsCause (α := α) (.error (.log cause)) := by
  rintro e ⟨⟩
  exact ⟨cause, rfl⟩

theorem yields_pure (a : α) : (pure a : Action α).run.Yields TellsCause := tellsCause_ok a

theorem yields_bind (hx : x.run.Yields TellsCause) (hf : ∀ a, (f a).run.Yields TellsCause) :
    (x >>= f).run.Yields TellsCause := by
  rw [run_bind_eq]
  refine hx.bind fun r hr => ?_
  cases r with
  | ok a => exact hf a
  | error e =>
      obtain ⟨cause, rfl⟩ := hr e rfl
      exact tellsCause_error cause

theorem yields_discard (hx : x.run.Yields TellsCause) : (discard x).run.Yields TellsCause := by
  rw [discard_eq]
  exact yields_bind hx fun _ => yields_pure ()

theorem yields_access (r : Request) : (access r).run.Yields TellsCause := by
  intro answer
  cases answer with
  | ok a => exact tellsCause_ok a
  | error fault => exact tellsCause_error (.disk fault)

theorem yields_accessIfThere (r : Request) : (accessIfThere r).run.Yields TellsCause := by
  intro answer
  simp only [Disk.Program.bind]
  split
  · exact tellsCause_ok _
  · exact tellsCause_ok none
  · exact tellsCause_error (.disk _)

theorem yields_isThere (path : List Char) : (isThere path).run.Yields TellsCause :=
  fun answer => tellsCause_ok answer.isOk

end Action

open Reachability.Log.Action

/-! ## The parts of an append -/

section Append

variable (log : Log) (moment : Moment)

theorem yields_segments : log.segments.run.Yields TellsCause := by
  refine yields_bind (yields_accessIfThere _) fun names => ?_
  cases names <;> exact yields_pure _

theorem yields_freeNumber (date : List Char) (tries number : Nat) :
    (log.freeNumber date number tries).run.Yields TellsCause := by
  induction tries generalizing number with
  | zero => exact tellsCause_error (.other noNumber)
  | succ tries ih =>
      refine yields_bind (yields_isThere _) fun there => ?_
      split
      · exact ih (number + 1)
      · exact yields_pure number

theorem yields_removeExpired (now : Int) (paths : List (List Char)) :
    (log.removeExpired now paths).run.Yields TellsCause := by
  induction paths with
  | nil => exact yields_pure ()
  | cons path paths ih =>
      refine yields_bind (yields_access (.stat path)) fun stat => ?_
      split
      · exact yields_bind (yields_discard (yields_accessIfThere _)) fun _ => ih
      · exact ih

theorem yields_prune (now : Int) : (log.prune now).run.Yields TellsCause := by
  unfold prune
  split
  · exact yields_bind log.yields_segments fun _ => log.yields_removeExpired now _
  · exact yields_pure ()

theorem yields_rotate : (log.rotate moment).run.Yields TellsCause := by
  refine yields_bind (yields_isThere _) fun there => ?_
  split
  · refine yields_bind (log.yields_freeNumber ..) fun number => ?_
    refine yields_bind (yields_access (.rename log.path _)) fun _ => ?_
    exact yields_bind (log.yields_prune _) fun _ => yields_pure _
  · exact yields_pure none

theorem yields_rotateIfFull : (log.rotateIfFull moment).run.Yields TellsCause := by
  refine yields_bind (yields_accessIfThere (.stat log.path)) fun stat => ?_
  cases stat with
  | none => exact yields_pure ()
  | some stat =>
      show (if log.maxBytes ≤ stat.size then discard (log.rotate moment)
        else pure () : Action Unit).run.Yields TellsCause
      split
      · exact yields_discard (log.yields_rotate moment)
      · exact yields_pure ()

omit log in
theorem yields_writeLine (path : List Char) (line : List UInt8) :
    (writeLine path line).run.Yields TellsCause :=
  yields_bind (yields_access (.append path line)) fun _ =>
    yields_bind (yields_access (.flush path)) fun _ => yields_access (.sync path)

/-- The error of an append tells what kept it from the disk, whichever of its accesses fail. -/
theorem yields_append (e : Entry) : (log.append moment e).run.Yields TellsCause := by
  refine yields_bind (log.yields_rotateIfFull moment) fun _ => ?_
  refine yields_bind (yields_access (.openAppend log.path)) fun length => ?_
  rw [run_tryCatch_eq]
  refine (yields_writeLine log.path (Segment.line e)).bind fun r hr => ?_
  cases r with
  | ok a => exact tellsCause_ok a
  | error error =>
      obtain ⟨cause, rfl⟩ := hr error rfl
      -- The error of the write is told, whatever cutting the file back answers.
      refine yields_bind (yields_discard fun answer => tellsCause_ok answer) fun _ => ?_
      exact tellsCause_error cause

end Append

end Log

end Reachability
