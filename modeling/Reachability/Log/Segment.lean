import Reachability.Log.Entry

set_option autoImplicit false

/-! # Segments

A segment is a file of the log: one entry a line. Only its last line may be damaged, because the
process was stopped while it was written. -/

namespace Reachability.Log.Segment

/-- The byte that ends a line. -/
def newline : UInt8 := 0x0A

/-- Puts a byte in front of lines. -/
def pushByte (b : UInt8) : List (List UInt8) → List (List UInt8)
  | [] => [[b]]
  | l :: ls => if b = newline then [b] :: l :: ls else (b :: l) :: ls

/-- The lines of a file, each with the newline that ends it. -/
def lines (bs : List UInt8) : List (List UInt8) := bs.foldr pushByte []

/-- The bytes that do not make a line count. -/
def isBlankByte (b : UInt8) : Bool := b == 0x20 || b == 0x09 || b == 0x0A || b == 0x0C || b == 0x0D

/-- Whether a line has nothing on it. -/
def isBlank (line : List UInt8) : Bool := line.all isBlankByte

/-- What was read from a segment. -/
structure Content where
  /-- The entries, in the order of their lines. -/
  entries : List Entry
  /-- Whether the last line with something on it is no entry. -/
  torn : Bool
  /-- The number of bytes up to the end of the last entry's line. -/
  cleanLength : Nat
  /-- Whether that line is ended by a newline; true without any entry. -/
  endsWithNewline : Bool
  deriving DecidableEq

/-- The content with an entry before all others, whose line ends at byte `stop`. -/
def Content.cons (e : Entry) (stop : Nat) (ended : Bool) (c : Content) : Content :=
  if c.entries = [] then ⟨[e], c.torn, stop, ended⟩ else { c with entries := e :: c.entries }

/-- Reads lines that stand behind `number` lines of `offset` bytes. The error is the number of the
    first line that is neither an entry nor the last one with something on it. -/
def readLines (number offset : Nat) : List (List UInt8) → Except Nat Content
  | [] => .ok ⟨[], false, 0, true⟩
  | line :: rest =>
    let stop := offset + line.length
    if isBlank line then readLines (number + 1) stop rest
    else
      match Entry.ofBytes? line with
      | some e =>
        (readLines (number + 1) stop rest).map (.cons e stop (line.getLast? == some newline))
      -- Only the last line can be one that was not written to its end.
      | none => if rest.all isBlank then .ok ⟨[], true, 0, true⟩ else .error (number + 1)

/-- Reads a segment. -/
def parse (bs : List UInt8) : Except Nat Content := readLines 0 0 (lines bs)

/-- The line of an entry. -/
def line (e : Entry) : List UInt8 := e.bytes ++ [newline]

end Reachability.Log.Segment
