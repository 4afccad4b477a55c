import Reachability.Disk.Tree

set_option autoImplicit false

/-! # Disk programs

A disk program is a list of accesses in which each one may depend on the answers before it. It is
data: it can be run, and it can be looked at what is on the disk when it is stopped between two
accesses or in the middle of one. -/

namespace Reachability.Disk

/-- An access to the disk. -/
inductive Request where
  | stat (path : List Char)
  | read (path : List Char)
  | list (path : List Char)
  | rename (old new : List Char)
  | remove (path : List Char)
  | openAppend (path : List Char)
  | append (path : List Char) (bytes : List UInt8)
  | truncate (path : List Char) (length : Nat)
  | flush (path : List Char)
  | sync (path : List Char)
  | write (path : List Char) (bytes : List UInt8)
  deriving DecidableEq

/-- What an access answers if it is not refused. -/
@[reducible] def Request.Result : Request → Type
  | stat _ => Stat
  | read _ => List UInt8
  | list _ => List String
  | openAppend _ => Nat
  | _ => Unit

/-- What an access answers. -/
abbrev Request.Answer (r : Request) : Type := Except Fault r.Result

/-- The answer and the disk after a change that may be refused; then nothing changes. -/
def changed (d : Disk) : Except Fault Disk → Except Fault Unit × Disk
  | .ok d' => (.ok (), d')
  | .error f => (.error f, d)

/-- What an access answers and what it makes of the disk. -/
def perform (now : Int) (d : Disk) : (r : Request) → r.Answer × Disk
  | .stat path => (d.stat path, d)
  | .read path => (d.read path, d)
  | .list path => (d.list path, d)
  | .rename old new => changed d (d.rename old new)
  | .remove path => changed d (d.remove path)
  | .openAppend path =>
    match d.openAppend now path with
    | .ok (n, d') => (.ok n, d')
    | .error f => (.error f, d)
  | .append path bs => changed d (d.append now path bs)
  | .truncate path n => changed d (d.truncate now path n)
  | .flush _ => (.ok (), d)
  | .sync path => (d.sync path, d)
  | .write path bs => changed d (d.write now path bs)

/-- Accesses one after the other, and a value in the end. -/
inductive Program (α : Type) where
  | done (value : α)
  | access (request : Request) (next : request.Answer → Program α)

namespace Program

variable {α β : Type}

/-- Goes on with what the value of a program says. -/
def bind : Program α → (α → Program β) → Program β
  | done a, f => f a
  | access r next, f => access r fun answer => (next answer).bind f

instance : Monad Program where
  pure := done
  bind := bind

/-- The program of a single access. -/
def ask (r : Request) : Program r.Answer := access r done

/-- Runs a program. -/
def run (now : Int) : Program α → Disk → α × Disk
  | done a, d => (a, d)
  | access r next, d =>
    let (answer, d') := perform now d r
    (next answer).run now d'

@[simp] theorem run_done (now : Int) (a : α) (d : Disk) : (done a).run now d = (a, d) := rfl

/-- A program that goes on with another is run by running one after the other. -/
theorem run_bind (now : Int) (p : Program α) (f : α → Program β) (d : Disk) :
    (p.bind f).run now d = (f (p.run now d).1).run now (p.run now d).2 := by
  induction p generalizing d with
  | done a => rfl
  | access r next ih => simp [bind, run, ih]

instance : LawfulMonad Program := LawfulMonad.mk' Program
  (fun p => by
    induction p with
    | done a => rfl
    | access r next ih => exact congrArg (access r) (funext ih))
  (fun _ _ => rfl)
  (fun p f g => by
    induction p with
    | done a => rfl
    | access r next ih => exact congrArg (access r) (funext ih))

end Program

end Reachability.Disk
