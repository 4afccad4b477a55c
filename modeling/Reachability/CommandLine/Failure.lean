import Reachability.Report.Text

set_option autoImplicit false

/-! # Failures of commands

Why a command ends without having done its work, and what is printed then: what was to be done, and
after it each cause with the causes of that. -/

namespace Reachability

/-- The error in words, and its cause, if it has one, once more. -/
def StoreError.account : StoreError → String
  | log cause => (StoreError.log cause).message ++ ": " ++ cause.message
  | e => e.message

/-- The error in words, followed by its causes. -/
def Report.Error.account : Report.Error → String
  | store cause => (Report.Error.store cause).message ++ ": " ++ cause.account
  | e => e.message

namespace CommandLine

/-- Why a command failed. -/
inductive Failure where
  | load (path : String) (cause : StoreError)
  | tooManyLinks (number limit : Nat)
  | create (cause : StoreError)
  | report (cause : Report.Error)
  | write (path : String) (fault : Disk.Fault)
  deriving DecidableEq

/-- The failure in words. -/
def Failure.message : Failure → String
  | load path cause => "failed to load task log " ++ path ++ ": " ++ cause.account
  | tooManyLinks number limit =>
    "batch of " ++ String.ofList (Text.decimal number) ++ " links exceeds the limit of " ++
      String.ofList (Text.decimal limit) ++ " (see --max-links)"
  | create cause => "failed to create task: " ++ cause.account
  | report cause => "failed to generate report: " ++ cause.account
  | write path fault => "failed to write " ++ path ++ ": " ++ fault.message

end CommandLine

end Reachability
