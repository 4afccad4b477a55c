import Reachability.Text.Utf8

set_option autoImplicit false

/-! # The bytes of a character

An ASCII character is one byte, and the bytes of any other character are no ASCII characters. So the
reader of bytes meets each sign of a format exactly where the text has it. -/

namespace Reachability.Text

theorem toNat_byte {n : Nat} (h : n < 256) : (UInt8.ofNat n).toNat = n :=
  UInt8.toNat_ofNat_of_lt' h

theorem toNat_ofUInt8 (b : UInt8) : (Char.ofUInt8 b).toNat = b.toNat := by
  show b.toUInt32.toNat = b.toNat
  exact UInt8.toNat_toUInt32 b

theorem utf8EncodeChar_of_lt {c : Char} (h : c.toNat < 128) :
    String.utf8EncodeChar c = [UInt8.ofNat c.toNat] := by
  have hle : c.val.toNat ≤ 0x7f := Nat.le_of_lt_succ h
  simp only [String.utf8EncodeChar, if_pos hle]
  rfl

theorem ofUInt8_ofNat {c : Char} (h : c.toNat < 128) : Char.ofUInt8 (UInt8.ofNat c.toNat) = c := by
  apply Char.toNat_inj.1
  rw [toNat_ofUInt8, toNat_byte (by omega)]

theorem le_of_mem_utf8EncodeChar {c : Char} (h : 128 ≤ c.toNat) {b : UInt8}
    (hb : b ∈ String.utf8EncodeChar c) : 128 ≤ b.toNat := by
  have hlt : c.toNat < 0x110000 := by
    rcases c.valid with hv | hv
    · have : c.toNat < 0xd800 := hv
      omega
    · exact hv.2
  have hc : c.val.toNat = c.toNat := rfl
  have hgt : ¬ c.toNat ≤ 0x7f := by omega
  simp only [String.utf8EncodeChar, hc, if_neg hgt] at hb
  split at hb
  · simp only [List.mem_cons, List.not_mem_nil, or_false] at hb
    rcases hb with rfl | rfl <;> rw [toNat_byte (by omega)] <;> omega
  split at hb
  · simp only [List.mem_cons, List.not_mem_nil, or_false] at hb
    rcases hb with rfl | rfl | rfl <;> rw [toNat_byte (by omega)] <;> omega
  · simp only [List.mem_cons, List.not_mem_nil, or_false] at hb
    rcases hb with rfl | rfl | rfl | rfl <;> rw [toNat_byte (by omega)] <;> omega

@[simp] theorem utf8_nil : utf8 [] = [] := rfl

theorem utf8_cons (c : Char) (cs : List Char) :
    utf8 (c :: cs) = String.utf8EncodeChar c ++ utf8 cs := List.flatMap_cons

theorem utf8_cons_of_lt {c : Char} (h : c.toNat < 128) (cs : List Char) :
    utf8 (c :: cs) = UInt8.ofNat c.toNat :: utf8 cs := by
  rw [utf8_cons, utf8EncodeChar_of_lt h, List.singleton_append]

/-- An ASCII character is among the bytes of a text only if it is in the text. -/
theorem mem_of_mem_utf8 {c : Char} (h : c.toNat < 128) {cs : List Char}
    (hb : UInt8.ofNat c.toNat ∈ utf8 cs) : c ∈ cs := by
  obtain ⟨d, hd, hbd⟩ := List.mem_flatMap.1 hb
  by_cases hlow : d.toNat < 128
  · rw [utf8EncodeChar_of_lt hlow, List.mem_singleton] at hbd
    have := congrArg Char.ofUInt8 hbd
    rw [ofUInt8_ofNat h, ofUInt8_ofNat hlow] at this
    exact this ▸ hd
  · have := le_of_mem_utf8EncodeChar (by omega) hbd
    rw [toNat_byte (by omega)] at this
    omega

end Reachability.Text
