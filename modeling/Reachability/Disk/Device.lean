import Reachability.Disk.Fault

set_option autoImplicit false

/-! # Devices

The files that are no storage: what is written to them is refused, forgotten or shown. They have no
length, so that they can neither be cut nor be kept in step with a storage. -/

namespace Reachability.Disk

/-- A file that keeps nothing of what is written to it. -/
inductive Device where
  /-- It never has room. -/
  | full
  /-- It forgets everything. -/
  | null
  /-- It shows everything where the program prints. -/
  | console
  deriving DecidableEq

namespace Device

/-- All devices. -/
def all : List Device := [full, null, console]

/-- The name of a device in their directory. -/
def name : Device → String
  | full => "full"
  | null => "null"
  | console => "stdout"

/-- What a device says to bytes that are written to it. -/
def accept : Device → List UInt8 → Except Fault Unit
  | full, _ :: _ => .error .noSpace
  | _, _ => .ok ()

end Device

end Reachability.Disk
