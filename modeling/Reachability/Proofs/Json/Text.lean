import Reachability.Json.Quoted
import Reachability.Json.Reader
import Reachability.Proofs.Text.Utf8

set_option autoImplicit false

/-! # Strings are read back

The reader meets a written string as a list of pieces: a byte for each byte that stands for itself,
a unit for each control character without a letter of its own. `run?_quoted` puts them together: a
written string is one token, whatever text it holds. -/

namespace Reachability.Json

open Text (utf8)

/-! ## Steps of the reader -/

theorem Reader.run?_cons (r : Reader) (b : UInt8) (bs : List UInt8) :
    r.run? (b :: bs) = (r.step? b).bind (·.run? bs) := by
  simp [Reader.run?, List.foldlM_cons]

@[simp] theorem Reader.run?_nil (r : Reader) : r.run? [] = some r := rfl

theorem Reader.run?_singleton (r : Reader) (b : UInt8) : r.run? [b] = r.step? b := by
  rw [run?_cons]
  cases r.step? b <;> rfl

/-! ## Characters of a string -/

/-- Whether a character is written with its number. -/
def isNumbered (c : Char) : Bool :=
  c.toNat < 0x20 && !(['\x08', '\x0c', '\n', '\r', '\t'].contains c)

/-- What the reader makes of a written character. -/
def pieces (c : Char) : List Piece :=
  if isNumbered c then [.unit c.toNat] else (String.utf8EncodeChar c).map .byte

theorem hexDigit?_hexChar : ∀ d < 16, Text.hexDigit? (hexChar d) = some d := by decide

theorem toNat_hexChar_lt : ∀ d < 16, (hexChar d).toNat < 128 := by decide

theorem run?_plain {bs : List UInt8} (h : ∀ b ∈ bs, 0x20 ≤ b.toNat ∧ b.toNat ≠ 0x22 ∧ b.toNat ≠ 0x5C)
    (read : List Piece) (b : Builder) :
    Reader.run? ⟨.text read .none, b⟩ bs
      = some ⟨.text ((bs.map .byte).reverse ++ read) .none, b⟩ := by
  induction bs generalizing read with
  | nil => rfl
  | cons x bs ih =>
      obtain ⟨hlow, hquote, hback⟩ := h x (List.mem_cons_self ..)
      have hq : ¬ Char.ofUInt8 x = '"' := fun he =>
        hquote ((Text.toNat_ofUInt8 x).symm.trans (congrArg Char.toNat he))
      have hb : ¬ Char.ofUInt8 x = '\\' := fun he =>
        hback ((Text.toNat_ofUInt8 x).symm.trans (congrArg Char.toNat he))
      have hl : ¬ x < 0x20 := by
        rw [UInt8.lt_iff_toNat_lt]
        exact Nat.not_lt.2 hlow
      rw [Reader.run?_cons]
      simp only [Reader.step?, Reader.inText?, if_neg hq, if_neg hb, if_neg hl, Option.bind_some]
      rw [ih fun y hy => h y (List.mem_cons_of_mem _ hy)]
      simp

/-- A character that is written with its number is read as a unit. -/
theorem run?_numbered {c : Char} (hc : c.toNat < 0x20) (read : List Piece) (b : Builder) :
    Reader.run? ⟨.text read .none, b⟩
        (utf8 ['\\', 'u', '0', '0', hexChar (c.toNat / 16), hexChar (c.toNat % 16)])
      = some ⟨.text (.unit c.toNat :: read) .none, b⟩ := by
  have hhigh := hexDigit?_hexChar (c.toNat / 16) (by omega)
  have hlow := hexDigit?_hexChar (c.toNat % 16) (by omega)
  have hhigh' := toNat_hexChar_lt (c.toNat / 16) (by omega)
  have hlow' := toNat_hexChar_lt (c.toNat % 16) (by omega)
  have hvalue : 16 * (c.toNat / 16) + c.toNat % 16 = c.toNat := by omega
  have hzero : Text.hexDigit? (Char.ofUInt8 (UInt8.ofNat ('0' : Char).toNat)) = some 0 := by decide
  have hslash : Reader.step? ⟨.text read .none, b⟩ (UInt8.ofNat ('\\' : Char).toNat)
      = some ⟨.text read .begun, b⟩ := rfl
  have hu : Reader.step? ⟨.text read .begun, b⟩ (UInt8.ofNat ('u' : Char).toNat)
      = some ⟨.text read (.hex 0 0), b⟩ := rfl
  rw [Text.utf8_cons_of_lt (by decide), Text.utf8_cons_of_lt (by decide),
    Text.utf8_cons_of_lt (by decide), Text.utf8_cons_of_lt (by decide),
    Text.utf8_cons_of_lt hhigh', Text.utf8_cons_of_lt hlow', Text.utf8_nil,
    Reader.run?_cons, hslash, Option.bind_some, Reader.run?_cons, hu, Option.bind_some]
  simp only [Reader.run?_cons, Reader.step?, Reader.inText?, hzero, Text.ofUInt8_ofNat hhigh',
    Text.ofUInt8_ofNat hlow', hhigh, hlow, Option.map_some, Option.bind_some]
  simp [hvalue]

/-- A written character is read as its pieces. -/
theorem run?_escape (c : Char) (read : List Piece) (b : Builder) :
    Reader.run? ⟨.text read .none, b⟩ (utf8 (escape c))
      = some ⟨.text ((pieces c).reverse ++ read) .none, b⟩ := by
  -- Seven characters have an escape of their own.
  unfold escape
  split
  · next h => subst h; rfl
  split
  · next h => subst h; rfl
  split
  · next h => subst h; rfl
  split
  · next h => subst h; rfl
  split
  · next h => subst h; rfl
  split
  · next h => subst h; rfl
  split
  · next h => subst h; rfl
  split
  · next hq hs hb hf hn hr ht hc =>
    have hp : pieces c = [.unit c.toNat] := by simp [pieces, isNumbered, hc, hb, hf, hn, hr, ht]
    rw [run?_numbered hc, hp]
    rfl
  · next hq hs hb hf hn hr ht hc =>
    -- None of the bytes of any other character is a quote, a backslash or a control character.
    have hp : pieces c = (String.utf8EncodeChar c).map .byte := by simp [pieces, isNumbered, hc]
    have hbytes : utf8 [c] = String.utf8EncodeChar c := by simp [utf8]
    rw [hbytes, hp, run?_plain]
    intro x hx
    by_cases hlow : c.toNat < 128
    · rw [Text.utf8EncodeChar_of_lt hlow, List.mem_singleton] at hx
      have hne : ∀ d : Char, ¬ c = d → c.toNat ≠ d.toNat := fun d hd he => hd (Char.toNat_inj.1 he)
      have hquote := hne _ hq
      have hslash := hne _ hs
      have e1 : ('"' : Char).toNat = 0x22 := rfl
      have e2 : ('\\' : Char).toNat = 0x5C := rfl
      rw [hx, Text.toNat_byte (by omega)]
      omega
    · have := Text.le_of_mem_utf8EncodeChar (by omega) hx
      omega

theorem run?_escapes (cs : List Char) (read : List Piece) (b : Builder) :
    Reader.run? ⟨.text read .none, b⟩ (utf8 (cs.flatMap escape))
      = some ⟨.text ((cs.flatMap pieces).reverse ++ read) .none, b⟩ := by
  induction cs generalizing read with
  | nil => rfl
  | cons c cs ih =>
      rw [List.flatMap_cons, Text.utf8_append, Reader.run?_append, run?_escape, Option.bind_some, ih,
        List.flatMap_cons, List.reverse_append, List.append_assoc]

/-! ## The text of the pieces -/

theorem pieceBytes?_unit {u : Nat} (h : u < 0xD800) (rest : List Piece) :
    pieceBytes? (.unit u :: rest)
      = (pieceBytes? rest).map (String.utf8EncodeChar (Char.ofNat u) ++ ·) := by
  have hlead : isLeading u = false := by
    simp only [isLeading, Bool.and_eq_false_iff, decide_eq_false_iff_not]
    omega
  have htrail : isTrailing u = false := by
    simp only [isTrailing, Bool.and_eq_false_iff, decide_eq_false_iff_not]
    omega
  cases rest with
  | nil => simp [pieceBytes?, hlead, htrail]
  | cons p rest => cases p <;> simp [pieceBytes?, hlead, htrail]

theorem pieceBytes?_map_byte (bs : List UInt8) (rest : List Piece) :
    pieceBytes? (bs.map .byte ++ rest) = (pieceBytes? rest).map (bs ++ ·) := by
  induction bs with
  | nil => simp
  | cons b bs ih =>
      rw [List.map_cons, List.cons_append, pieceBytes?, ih, Option.map_map]
      rfl

theorem pieceBytes?_pieces (c : Char) (rest : List Piece) :
    pieceBytes? (pieces c ++ rest)
      = (pieceBytes? rest).map (String.utf8EncodeChar c ++ ·) := by
  unfold pieces
  split
  · next h =>
    have hc : c.toNat < 0x20 := by
      simp only [isNumbered, Bool.and_eq_true, decide_eq_true_eq] at h
      exact h.1
    rw [List.singleton_append, pieceBytes?_unit (by omega), Char.ofNat_toNat]
  · exact pieceBytes?_map_byte _ rest

theorem pieceText?_pieces (s : String) : pieceText? (s.toList.flatMap pieces) = some s := by
  have hbytes : ∀ cs : List Char, pieceBytes? (cs.flatMap pieces) = some (utf8 cs) := by
    intro cs
    induction cs with
    | nil => rfl
    | cons c cs ih =>
        rw [List.flatMap_cons, pieceBytes?_pieces, ih, Option.map_some, ← Text.utf8_cons]
  rw [pieceText?, hbytes, Option.bind_some, Text.ofBytes?_utf8, String.ofList_toList]

/-- A written string is read as one token. -/
theorem run?_quoted (s : String) (b : Builder) :
    Reader.run? ⟨.between, b⟩ (utf8 (quoted s))
      = (b.push? (.scalar (.text (some s)))).map (⟨.between, ·⟩) := by
  have hopen : Reader.step? ⟨.between, b⟩ (UInt8.ofNat ('"' : Char).toNat)
      = some ⟨.text [] .none, b⟩ := rfl
  have hclose : ∀ read, Reader.step? ⟨.text read .none, b⟩ (UInt8.ofNat ('"' : Char).toNat)
      = (b.push? (.scalar (.text (pieceText? read.reverse)))).map (⟨.between, ·⟩) := fun _ => rfl
  rw [quoted, List.cons_append, Text.utf8_cons_of_lt (by decide), Reader.run?_cons, hopen,
    Option.bind_some, Text.utf8_append, Reader.run?_append, run?_escapes, Option.bind_some,
    List.append_nil, Text.utf8_cons_of_lt (by decide), Text.utf8_nil, Reader.run?_singleton, hclose,
    List.reverse_reverse, pieceText?_pieces]

end Reachability.Json
