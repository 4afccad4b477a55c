import Reachability.Json.Numeral
import Reachability.Proofs.Text.Numeral

set_option autoImplicit false

/-! # Numbers in decimal are numerals of JSON

What `decimal` writes is a numeral without sign, point and exponent; a number below `2 ^ 64` is also
within the range of a double. -/

namespace Reachability.Json.Numeral

/-- The digits of a number. -/
def digitsOf (n : Nat) : List Nat := (Text.decimal n).map fun c => c.toNat - '0'.toNat

/-- The numeral of a number. -/
def ofNat (n : Nat) : Numeral := ⟨false, digitsOf n, none, none⟩

theorem ofDigits_digitsOf (n : Nat) : Text.ofDigits (digitsOf n) = n := by
  rw [digitsOf, Text.ofDigits_map_eq]
  exact Nat.ofDigitChars_ten_toDigits

/-! ## Reading -/

@[simp] theorem natural?_ofNat (n : Nat) : (ofNat n).natural? = some n := by
  simp [ofNat, natural?, ofDigits_digitsOf]

theorem takeDigits_of_isDigit {cs : List Char} (h : ∀ c ∈ cs, c.isDigit = true) :
    takeDigits cs = (cs.map fun c => c.toNat - '0'.toNat, []) := by
  induction cs with
  | nil => rfl
  | cons c cs ih =>
      rw [takeDigits, Text.digit?_of_isDigit (h c (List.mem_cons_self ..))]
      simp only [ih fun d hd => h d (List.mem_cons_of_mem _ hd), List.map_cons]

/-- A positive number does not start with a zero. -/
theorem decimal_eq_cons {n : Nat} (hn : 0 < n) :
    ∃ c cs, Text.decimal n = c :: cs ∧ c.toNat - '0'.toNat ≠ 0 := by
  induction n using Nat.strongRecOn with
  | ind n ih =>
      rcases Nat.lt_or_ge n 10 with hlt | hge
      · refine ⟨n.digitChar, [], Nat.toDigits_of_lt_base hlt, ?_⟩
        have := Nat.toNat_digitChar_sub_48_of_lt_ten hlt
        change n.digitChar.toNat - 48 ≠ 0
        omega
      · obtain ⟨c, cs, hc, hne⟩ := ih (n / 10) (by omega) (by omega)
        refine ⟨c, cs ++ [(n % 10).digitChar], ?_, hne⟩
        rw [Text.decimal, Nat.toDigits_of_base_le (by decide) hge]
        exact congrArg (· ++ [(n % 10).digitChar]) hc

theorem wholeInOrder_digitsOf (n : Nat) : wholeInOrder (digitsOf n) = true := by
  rcases Nat.eq_zero_or_pos n with rfl | hn
  · rfl
  · obtain ⟨c, cs, hc, hne⟩ := decimal_eq_cons hn
    rw [digitsOf, hc, List.map_cons]
    cases cs with
    | nil => rfl
    | cons d ds => exact bne_iff_ne.2 hne

theorem parse?_decimal (n : Nat) : parse? (Text.decimal n) = some (ofNat n) := by
  have hdigits : takeDigits (Text.decimal n) = (digitsOf n, []) :=
    takeDigits_of_isDigit fun _ => Text.isDigit_of_mem_decimal
  have hhead : ∀ rest, Text.decimal n ≠ '-' :: rest := fun rest hr =>
    Bool.noConfusion (Text.isDigit_of_mem_decimal (n := n) (c := '-') (hr ▸ List.mem_cons_self ..))
  unfold parse?
  split
  next negative cs hcs =>
    split at hcs
    · next rest hr => exact absurd hr (hhead rest)
    · obtain ⟨rfl, rfl⟩ := Prod.mk.inj hcs
      simp [hdigits, wholeInOrder_digitsOf, takeFraction?, takeExponent?, ofNat]

/-! ## Size -/

theorem le_foldl_digits (ds : List Nat) (s : Nat) :
    s ≤ ds.foldl (fun n d => 10 * n + d) s := by
  induction ds generalizing s with
  | nil => exact Nat.le_refl s
  | cons d ds ih => exact Nat.le_trans (by omega) (ih (10 * s + d))

theorem absorb_of_lt {ds : List Nat} {s : Nat}
    (h : ds.foldl (fun n d => 10 * n + d) s < Text.wordBound) :
    absorb s ds = (ds.foldl (fun n d => 10 * n + d) s, 0) := by
  induction ds generalizing s with
  | nil => rfl
  | cons d ds ih =>
      have hle := le_foldl_digits ds (10 * s + d)
      rw [absorb, if_pos (Nat.lt_of_le_of_lt hle h)]
      exact ih h

/-- Rounding to a double at most doubles a word. -/
theorem nearestDouble_le {n : Nat} (h : n < Text.wordBound) :
    nearestDouble n ≤ 36893488147419103232 := by
  have hlog : n.log2 < 64 := by
    rcases Nat.eq_zero_or_pos n with rfl | hn
    · decide
    · exact (Nat.log2_lt (by omega)).2 h
  have hunit : Nat.pow 2 (n.log2 + 1 - 53) ≤ Nat.pow 2 11 :=
    Nat.pow_le_pow_right (by decide) (by omega)
  rw [show Nat.pow 2 11 = 2048 from rfl] at hunit
  have hword : n < 18446744073709551616 := h
  have hmul : n / Nat.pow 2 (n.log2 + 1 - 53) * Nat.pow 2 (n.log2 + 1 - 53) ≤ n :=
    Nat.div_mul_le_self ..
  unfold nearestDouble
  dsimp only
  split
  · rw [Nat.succ_mul]
    omega
  · omega

theorem isFinite_ofNat {n : Nat} (h : n < Text.wordBound) : (ofNat n).isFinite = true := by
  have habsorb : absorb 0 (digitsOf n) = (n, 0) := by
    have hof : (digitsOf n).foldl (fun n d => 10 * n + d) 0 = n := ofDigits_digitsOf n
    rw [absorb_of_lt (by rw [hof]; exact h), hof]
  have hone : nearestDouble 1 = 1 := by decide
  have hbound : 36893488147419103232 < doubleBound := by decide +kernel
  have hn := Nat.lt_of_le_of_lt (nearestDouble_le h) hbound
  simp [isFinite, ofNat, habsorb, absorb, hone, hn]

end Reachability.Json.Numeral
