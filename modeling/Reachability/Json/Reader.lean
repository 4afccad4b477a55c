import Reachability.Json.Value
import Reachability.Text.Utf8

set_option autoImplicit false

/-! # Reading JSON

A reader takes bytes one at a time: a scanner puts them together to tokens, and a builder puts the
tokens together to values, with the arrays and objects still open on a stack. So reading is a fold
over the bytes, and what has been read after `a ++ b` is what `b` makes of the state after `a`. -/

namespace Reachability.Json

/-! ## Strings -/

/-- What a string is written with: bytes, and UTF-16 units from `\u` escapes. -/
inductive Piece where
  | byte (value : UInt8)
  | unit (value : Nat)

/-- Whether a UTF-16 unit is the first of a pair. -/
def isLeading (u : Nat) : Bool := 0xD800 ≤ u && u < 0xDC00

/-- Whether a UTF-16 unit is the second of a pair. -/
def isTrailing (u : Nat) : Bool := 0xDC00 ≤ u && u < 0xE000

/-- The bytes that pieces stand for; none if a unit lacks its partner. -/
def pieceBytes? : List Piece → Option (List UInt8)
  | [] => some []
  | .byte b :: rest => (pieceBytes? rest).map (b :: ·)
  -- Two units that are a pair stand for one character.
  | .unit u :: .unit l :: rest =>
    if isLeading u then
      if isTrailing l then
        (pieceBytes? rest).map
          (String.utf8EncodeChar (Char.ofNat (0x10000 + (u - 0xD800) * 0x400 + (l - 0xDC00))) ++ ·)
      else none
    else if isTrailing u then none
    else (pieceBytes? (.unit l :: rest)).map (String.utf8EncodeChar (Char.ofNat u) ++ ·)
  | .unit u :: rest =>
    if isLeading u || isTrailing u then none
    else (pieceBytes? rest).map (String.utf8EncodeChar (Char.ofNat u) ++ ·)

/-- The text that pieces stand for, if it is one. -/
def pieceText? (ps : List Piece) : Option String := (pieceBytes? ps).bind Text.ofBytes?

/-! ## Tokens -/

/-- The smallest parts of a value. -/
inductive Token where
  | beginArray
  | endArray
  | beginObject
  | endObject
  | comma
  | colon
  | scalar (value : Json)

/-- How far an escape in a string has been read. -/
inductive Escape where
  | none
  | begun
  | hex (digits value : Nat)

/-- What the scanner is in the middle of. Bytes and pieces are kept last first. -/
inductive Scan where
  | between
  | word (read : List Char)
  | numeral (read : List Char)
  | text (read : List Piece) (escape : Escape)

/-- The token that a word is. -/
def wordToken? (cs : List Char) : Option Token :=
  if cs = ['n', 'u', 'l', 'l'] then some (.scalar .null)
  else if cs = ['t', 'r', 'u', 'e'] then some (.scalar (.truth true))
  else if cs = ['f', 'a', 'l', 's', 'e'] then some (.scalar (.truth false))
  else none

/-- The token that the characters of a number are. -/
def numeralToken? (cs : List Char) : Option Token :=
  (Numeral.parse? cs).map fun n => .scalar (.number n)

/-- The token that is a single character. -/
def signToken? (c : Char) : Option Token :=
  if c = '[' then some .beginArray
  else if c = ']' then some .endArray
  else if c = '\x7b' then some .beginObject
  else if c = '\x7d' then some .endObject
  else if c = ',' then some .comma
  else if c = ':' then some .colon
  else none

/-- Whether a character may stand in a number. -/
def inNumeral (c : Char) : Bool :=
  c.isDigit || c == '+' || c == '-' || c == '.' || c == 'e' || c == 'E'

/-- The byte that a one-letter escape stands for. -/
def escaped? (c : Char) : Option UInt8 :=
  if c = '"' then some 0x22
  else if c = '\\' then some 0x5C
  else if c = '/' then some 0x2F
  else if c = 'b' then some 0x08
  else if c = 'f' then some 0x0C
  else if c = 'n' then some 0x0A
  else if c = 'r' then some 0x0D
  else if c = 't' then some 0x09
  else none

/-! ## Building values -/

/-- An array or object that is still open, with its content so far, last first. -/
inductive Frame where
  | array (items : List Json)
  | object (fields : List (Option String × Json)) (key : Option String)

/-- What may come next. -/
inductive Stage where
  | value
  | firstItem
  | firstKey
  | key (fields : List (Option String × Json))
  | colon (fields : List (Option String × Json)) (key : Option String)
  | complete (value : Json)

/-- The open arrays and objects, the innermost first, and what may come next. -/
structure Builder where
  /-- What is still open. -/
  frames : List Frame
  /-- What may come next. -/
  stage : Stage

namespace Builder

/-- Starts a value inside the given frames. -/
def start? (frames : List Frame) : Token → Option Builder
  | .scalar v => some ⟨frames, .complete v⟩
  | .beginArray => some ⟨frames, .firstItem⟩
  | .beginObject => some ⟨frames, .firstKey⟩
  | _ => none

/-- Takes one more token. -/
def push? (b : Builder) (t : Token) : Option Builder :=
  match b.stage, t with
  | .value, t => start? b.frames t
  | .firstItem, .endArray => some ⟨b.frames, .complete (.array [])⟩
  | .firstItem, t => start? (.array [] :: b.frames) t
  | .firstKey, .endObject => some ⟨b.frames, .complete (.object [])⟩
  | .firstKey, .scalar (.text k) => some ⟨b.frames, .colon [] k⟩
  | .key fields, .scalar (.text k) => some ⟨b.frames, .colon fields k⟩
  | .colon fields k, .colon => some ⟨.object fields k :: b.frames, .value⟩
  | .complete v, t =>
    match b.frames, t with
    | .array items :: rest, .comma => some ⟨.array (v :: items) :: rest, .value⟩
    | .array items :: rest, .endArray => some ⟨rest, .complete (.array (v :: items).reverse)⟩
    | .object fields k :: rest, .comma => some ⟨rest, .key ((k, v) :: fields)⟩
    | .object fields k :: rest, .endObject =>
      some ⟨rest, .complete (.object ((k, v) :: fields).reverse)⟩
    | _, _ => none
  | _, _ => none

end Builder

/-! ## The reader -/

/-- A scanner and a builder. -/
structure Reader where
  /-- What the scanner is in the middle of. -/
  scan : Scan
  /-- The values so far. -/
  build : Builder

namespace Reader

/-- The reader before the first byte. -/
def initial : Reader := ⟨.between, ⟨[], .value⟩⟩

/-- Hands a finished token to the builder. -/
def emit? (b : Builder) (t : Option Token) : Option Builder := t.bind b.push?

/-- Takes a byte that does not continue the token before it. -/
def begin? (b : Builder) (byte : UInt8) : Option Reader :=
  let c := Char.ofUInt8 byte
  if c = ' ' ∨ c = '\n' ∨ c = '\t' ∨ c = '\r' then some ⟨.between, b⟩
  else if c = '"' then some ⟨.text [] .none, b⟩
  else if c.isLower then some ⟨.word [c], b⟩
  else if c = '-' ∨ c.isDigit then some ⟨.numeral [c], b⟩
  else (emit? b (signToken? c)).map (⟨.between, ·⟩)

/-- Takes one more byte of a string. -/
def inText? (read : List Piece) (escape : Escape) (b : Builder) (byte : UInt8) : Option Reader :=
  let c := Char.ofUInt8 byte
  match escape with
  | .none =>
    if c = '"' then
      (emit? b (some (.scalar (.text (pieceText? read.reverse))))).map (⟨.between, ·⟩)
    else if c = '\\' then some ⟨.text read .begun, b⟩
    -- The bytes of a longer character are taken as they are; none of them looks like a sign.
    else if byte < 0x20 then none
    else some ⟨.text (.byte byte :: read) .none, b⟩
  | .begun =>
    if c = 'u' then some ⟨.text read (.hex 0 0), b⟩
    else (escaped? c).map fun e => ⟨.text (.byte e :: read) .none, b⟩
  | .hex digits value =>
    (Text.hexDigit? c).map fun d =>
      if digits = 3 then ⟨.text (.unit (16 * value + d) :: read) .none, b⟩
      else ⟨.text read (.hex (digits + 1) (16 * value + d)), b⟩

/-- Takes one more byte. -/
def step? (r : Reader) (byte : UInt8) : Option Reader :=
  let c := Char.ofUInt8 byte
  match r.scan with
  | .between => begin? r.build byte
  | .word read =>
    if c.isLower then some ⟨.word (c :: read), r.build⟩
    else (emit? r.build (wordToken? read.reverse)).bind (begin? · byte)
  | .numeral read =>
    if inNumeral c then some ⟨.numeral (c :: read), r.build⟩
    else (emit? r.build (numeralToken? read.reverse)).bind (begin? · byte)
  | .text read escape => inText? read escape r.build byte

/-- The value that has been read, if nothing is left open. -/
def finish? (r : Reader) : Option Json := do
  let b ← match r.scan with
    | .between => some r.build
    | .word read => emit? r.build (wordToken? read.reverse)
    | .numeral read => emit? r.build (numeralToken? read.reverse)
    | .text _ _ => none
  match b.frames, b.stage with
  | [], .complete v => some v
  | _, _ => none

/-- Takes bytes one after the other. -/
def run? (r : Reader) (bs : List UInt8) : Option Reader := bs.foldlM step? r

theorem run?_append (r : Reader) (a b : List UInt8) :
    r.run? (a ++ b) = (r.run? a).bind (·.run? b) := by
  simp [run?, List.foldlM_append]

end Reader

/-- Reads the bytes of one value, with blanks around it. -/
def parse? (bs : List UInt8) : Option Json := (Reader.initial.run? bs).bind Reader.finish?

end Reachability.Json
