import Reachability.Disk.Fault
import Reachability.Task

set_option autoImplicit false

/-! # Errors of the store -/

namespace Reachability

/-- What kept the log from being read or written. -/
inductive LogFailure where
  | disk (fault : Disk.Fault)
  | other (reason : String)
  deriving DecidableEq

/-- The failure in words. -/
def LogFailure.message : LogFailure → String
  | disk fault => fault.message
  | other reason => reason

/-- Why the store could not do what it was asked for. -/
inductive StoreError where
  | log (cause : LogFailure)
  | corrupt (path : String) (line : Nat) (reason : String)
  | notFound (id : TaskId)
  | idsExhausted
  deriving DecidableEq

/-- The error in words. -/
def StoreError.message : StoreError → String
  | log cause => "task log I/O failed: " ++ cause.message
  | corrupt path line reason =>
    "corrupt log entry in " ++ path ++ " at line " ++ String.ofList (Text.decimal line) ++ ": " ++
      reason
  | notFound id => "task " ++ String.ofList (Text.decimal id.toNat) ++ " not found"
  | idsExhausted => "no task IDs left to assign"

end Reachability
