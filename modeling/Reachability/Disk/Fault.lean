import Reachability.Text.Numeral

set_option autoImplicit false

/-! # Faults of the file system

What the operating system says when it refuses an access. -/

namespace Reachability.Disk

/-- Why an access was refused. -/
inductive Fault where
  | notFound
  | notDirectory
  | isDirectory
  | noSpace
  | invalid
  | busy
  | nameTooLong
  deriving DecidableEq

namespace Fault

/-- The number of the fault. -/
def code : Fault → Nat
  | notFound => 2
  | notDirectory => 20
  | isDirectory => 21
  | noSpace => 28
  | invalid => 22
  | busy => 16
  | nameTooLong => 36

/-- The fault in words. -/
def words : Fault → String
  | notFound => "No such file or directory"
  | notDirectory => "Not a directory"
  | isDirectory => "Is a directory"
  | noSpace => "No space left on device"
  | invalid => "Invalid argument"
  | busy => "Device or resource busy"
  | nameTooLong => "File name too long"

/-- The fault in words, with its number. -/
def message (f : Fault) : String :=
  f.words ++ " (os error " ++ String.ofList (Text.decimal f.code) ++ ")"

end Fault

end Reachability.Disk
