import Reachability.Disk.Device
import Reachability.Disk.Path
import Reachability.Table

set_option autoImplicit false

/-! # Disks

A disk holds files and directories. Every node is kept under the list of names that lead to it from
the working directory, which itself has the empty list. -/

namespace Reachability

/-- What a disk holds under one place. -/
inductive Disk.Node where
  | file (content : List UInt8) (modified : Int)
  | directory (modified : Int)
  | device (kind : Device)
  deriving DecidableEq

/-- The names that lead to a node. -/
abbrev Disk.Place := List String

instance : LE Disk.Place := List.instLE

instance : Std.IsLinearOrder Disk.Place := List.instIsLinearOrder

instance : Std.LawfulOrderLT Disk.Place := List.instLawfulOrderLTOfAsymmLt

/-- Files and directories by their places. -/
structure Disk where
  /-- The nodes. -/
  nodes : Table Disk.Place Disk.Node
  deriving DecidableEq

namespace Disk

/-- The directory of the devices. -/
def devices : Place := ["/", "dev"]

/-- The device at a place. -/
def device? (p : Place) : Option Device := Device.all.find? fun k => p == devices ++ [k.name]

/-- The directories that every disk has, apart from those around the working directory. -/
def standing : List Place := [["/"], devices, ["/", "tmp"]]

/-- Whether a place is the working directory or one of the directories around it. -/
def isAround (p : Place) : Bool := p.all (· == "..")

/-- The node at a place. The working directory, those around it, the standing ones and the devices
    are always there. -/
def node? (d : Disk) (p : Place) : Option Node :=
  if isAround p ∨ p ∈ standing then some (.directory 0)
  else
    match device? p with
    | some k => some (.device k)
    | none => d.nodes.get? p

/-- The directory that a directory is in. The root is in itself. -/
def above (p : Place) : Place :=
  if p = ["/"] then p
  else if isAround p then p ++ [".."]
  else p.dropLast

/-- The number of bytes that a name has at most. -/
def longestName : Nat := 255

/-- The number of bytes that a path has at most. -/
def longestPath : Nat := 4095

/-- The place that a name in a directory leads to. -/
def entry (here : Place) (name : String) : Except Fault Place :=
  if name = "." then .ok here
  else if name = ".." then .ok (above here)
  else if longestName < name.utf8ByteSize then .error .nameTooLong
  else .ok (here ++ [name])

/-- Goes on from a directory through those with the given names. -/
def walk (d : Disk) (here : Place) : List String → Except Fault Place
  | [] => .ok here
  | name :: rest => do
    let next ← entry here name
    match d.node? next with
    | some (.directory _) => d.walk next rest
    | some _ => .error .notDirectory
    | none => .error .notFound

/-- What a path ends with: a directory that has no name of its own there, or a name in a
    directory. -/
inductive Goal where
  | unnamed (place : Place)
  | named (directory : Place) (name : String)

/-- What a path ends with. All directories on the way have to be there. -/
def goal (d : Disk) (path : List Char) : Except Fault Goal := do
  if path.isEmpty then .error .notFound
  else if longestPath < (String.ofList path).utf8ByteSize then .error .nameTooLong
  else
    let start := if path.head? = some '/' then ["/"] else []
    let names := Path.names path
    let here ← d.walk start names.dropLast
    match names.getLast? with
    | none => .ok (.unnamed here)
    | some name =>
      if name = "." ∨ name = ".." then (entry here name).map .unnamed
      else .ok (.named here name)

/-- The place that a path leads to, whether there is something or not. -/
def resolve (d : Disk) (path : List Char) : Except Fault Place := do
  match ← d.goal path with
  | .unnamed place => .ok place
  | .named here name => entry here name

/-- Whether a path can only lead to a directory. -/
def wantsDirectory (path : List Char) : Bool := path.getLast? == some '/'

/-- The place and the node that a path leads to. -/
def find (d : Disk) (path : List Char) : Except Fault (Place × Node) := do
  let place ← d.resolve path
  match d.node? place with
  | none => .error .notFound
  | some (.directory t) => .ok (place, .directory t)
  | some node => if wantsDirectory path then .error .notDirectory else .ok (place, node)

/-- The disk with a node at a place. -/
def put (d : Disk) (p : Place) (n : Node) : Disk := ⟨d.nodes.insert p n⟩

/-! ## Accesses -/

/-- Size and time of the last change. -/
structure Stat where
  /-- The number of bytes. -/
  size : Nat
  /-- The time of the last change, in seconds. -/
  modified : Int
  deriving DecidableEq

/-- The size that is shown of a directory. -/
def directorySize : Nat := 4096

/-- Size and time of a node. -/
def Node.stat : Node → Stat
  | file content t => ⟨content.length, t⟩
  | directory t => ⟨directorySize, t⟩
  | device _ => ⟨0, 0⟩

/-- Size and time of what a path leads to. -/
def stat (d : Disk) (path : List Char) : Except Fault Stat := (d.find path).map fun x => x.2.stat

/-- The content of a file. -/
def read (d : Disk) (path : List Char) : Except Fault (List UInt8) := do
  match (← d.find path).2 with
  | .file content _ => .ok content
  | .directory _ => .error .isDirectory
  | .device _ => .ok []

/-- The name of a node, if it is right in the given directory. -/
def nameIn? (directory p : Place) : Option String :=
  match p.getLast? with
  | some name => if p = directory ++ [name] then some name else none
  | none => none

/-- The names in a directory. -/
def list (d : Disk) (path : List Char) : Except Fault (List String) := do
  match ← d.find path with
  | (place, .directory _) => .ok (d.nodes.keys.filterMap (nameIn? place))
  | _ => .error .notDirectory

/-- The place of the file that a path names, which may be a new one. -/
def filePlace (d : Disk) (path : List Char) : Except Fault Place := do
  match ← d.goal path with
  | .unnamed _ => .error .isDirectory
  | .named here name =>
    if wantsDirectory path then .error .isDirectory
    else
      let place ← entry here name
      match d.node? place with
      | some (.directory _) => .error .isDirectory
      | _ => .ok place

/-- Opens a file to add to it, and makes an empty one if there is none: its length. -/
def openAppend (now : Int) (d : Disk) (path : List Char) : Except Fault (Nat × Disk) := do
  let place ← d.filePlace path
  match d.node? place with
  | some node => .ok (node.stat.size, d)
  | none => .ok (0, d.put place (.file [] now))

/-- Adds bytes at the end of a file. -/
def append (now : Int) (d : Disk) (path : List Char) (bs : List UInt8) : Except Fault Disk := do
  match ← d.find path with
  | (place, .file content _) => .ok (d.put place (.file (content ++ bs) now))
  | (_, .directory _) => .error .isDirectory
  | (_, .device k) => (k.accept bs).map fun _ => d

/-- Cuts a file to a length. -/
def truncate (now : Int) (d : Disk) (path : List Char) (n : Nat) : Except Fault Disk := do
  match ← d.find path with
  | (place, .file content _) => .ok (d.put place (.file (content.take n) now))
  | (_, .directory _) => .error .isDirectory
  | (_, .device _) => .error .invalid

/-- Sees that a file is kept, which no device does. -/
def sync (d : Disk) (path : List Char) : Except Fault Unit :=
  match d.find path with
  | .ok (_, .device _) => .error .invalid
  | _ => .ok ()

/-- A place after everything in `old` has moved to `new`. -/
def movedPlace (old new p : Place) : Place :=
  if old.isPrefixOf p then new ++ p.drop old.length else p

/-- Moves what one path leads to under another path. Only what has a name in its directory can be
    moved. -/
def rename (d : Disk) (old new : List Char) : Except Fault Disk := do
  match ← d.goal old, ← d.goal new with
  | .named .., .named .. =>
    let (source, node) ← d.find old
    let target ← d.resolve new
    match node, d.node? target with
    | .file .., some (.directory _) => .error .isDirectory
    | .directory _, some (.file ..) => .error .notDirectory
    | _, _ =>
      -- What was at the new place is replaced.
      let kept := (d.nodes.erase target).entries
      .ok ⟨Table.ofList (kept.map fun (p, n) => (movedPlace source target p, n))⟩
  | _, _ => .error .busy

/-- Removes a file. -/
def remove (d : Disk) (path : List Char) : Except Fault Disk := do
  match ← d.find path with
  | (_, .directory _) => .error .isDirectory
  | (place, _) => .ok ⟨d.nodes.erase place⟩

/-- Writes a file anew. -/
def write (now : Int) (d : Disk) (path : List Char) (bs : List UInt8) : Except Fault Disk := do
  let place ← d.filePlace path
  match d.node? place with
  | some (.device k) => (k.accept bs).map fun _ => d
  | _ => .ok (d.put place (.file bs now))

end Disk

end Reachability
