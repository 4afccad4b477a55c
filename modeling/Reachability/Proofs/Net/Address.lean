import Mathlib.Data.Nat.Bitwise
import Reachability.Net.Address

set_option autoImplicit false

/-! # Forbidden addresses as ranges

Whether an address is forbidden is decided by its leading bits and by masks. Here the forbidden
addresses are listed as ranges, from the first to the last, and the two agree on every address
(`isForbidden_iff`). -/

namespace Reachability.Address

/-! ## Ranges -/

/-- An address lies in one of some ranges. -/
def Within {w : Nat} (ranges : List (BitVec w × BitVec w)) (a : BitVec w) : Prop :=
  ∃ r ∈ ranges, r.1 ≤ a ∧ a ≤ r.2

instance {w : Nat} (ranges : List (BitVec w × BitVec w)) (a : BitVec w) :
    Decidable (Within ranges a) :=
  decidable_of_iff ((ranges.any fun r => decide (r.1 ≤ a ∧ a ≤ r.2)) = true)
    (by simp only [List.any_eq_true, decide_eq_true_eq, Within])

/-- The version 6 address that stands for a version 4 address. -/
def mapped (a : BitVec 32) : BitVec 128 :=
  ofGroups [0, 0, 0, 0, 0, 0xFFFF, a.toNat / 65536, a.toNat % 65536]

/-- The version 4 addresses that are not public: private networks, this host, the local link and
    this network. -/
def privateRanges : List (BitVec 32 × BitVec 32) := [
  (ofOctets 10 0 0 0, ofOctets 10 255 255 255),
  (ofOctets 172 16 0 0, ofOctets 172 31 255 255),
  (ofOctets 192 168 0 0, ofOctets 192 168 255 255),
  (ofOctets 127 0 0 0, ofOctets 127 255 255 255),
  (ofOctets 169 254 0 0, ofOctets 169 254 255 255),
  (ofOctets 0 0 0 0, ofOctets 0 255 255 255)]

/-- The version 6 addresses that stand for these. -/
def mappedRanges : List (BitVec 128 × BitVec 128) :=
  privateRanges.map fun r => (mapped r.1, mapped r.2)

/-- The version 6 addresses of this host, of none, of the local link and of the local site. -/
def localRanges : List (BitVec 128 × BitVec 128) := [
  (ofGroups [0, 0, 0, 0, 0, 0, 0, 1], ofGroups [0, 0, 0, 0, 0, 0, 0, 1]),
  (ofGroups [0, 0, 0, 0, 0, 0, 0, 0], ofGroups [0, 0, 0, 0, 0, 0, 0, 0]),
  (ofGroups [0xFE80, 0, 0, 0, 0, 0, 0, 0],
    ofGroups [0xFEBF, 0xFFFF, 0xFFFF, 0xFFFF, 0xFFFF, 0xFFFF, 0xFFFF, 0xFFFF]),
  (ofGroups [0xFC00, 0, 0, 0, 0, 0, 0, 0],
    ofGroups [0xFDFF, 0xFFFF, 0xFFFF, 0xFFFF, 0xFFFF, 0xFFFF, 0xFFFF, 0xFFFF])]

/-- The multicast addresses of link-local scope: one range for each value of the four flags. -/
def linkMulticastRanges : List (BitVec 128 × BitVec 128) :=
  (List.range 16).map fun flags =>
    (ofGroups ((0xFF02 + 16 * flags) :: List.replicate 7 0),
      ofGroups ((0xFF02 + 16 * flags) :: List.replicate 7 0xFFFF))

/-- The addresses that no request may be sent to. -/
def Forbidden : Address → Prop
  | v4 a => Within privateRanges a
  | v6 a => Within (mappedRanges ++ localRanges ++ linkMulticastRanges) a

instance : DecidablePred Forbidden
  | v4 a => inferInstanceAs (Decidable (Within privateRanges a))
  | v6 a => inferInstanceAs
      (Decidable (Within (mappedRanges ++ localRanges ++ linkMulticastRanges) a))

theorem within_append {w : Nat} {rs rs' : List (BitVec w × BitVec w)} {a : BitVec w} :
    Within (rs ++ rs') a ↔ Within rs a ∨ Within rs' a := by
  simp only [Within, List.mem_append, or_and_right, exists_or]

/-! ## Leading bits -/

section Lead

variable {w : Nat} {base a : BitVec w} {length : Nat}

/-- The last address that starts with the same bits as `base`, if the rest of `base` is zero. -/
def lastSharing (base : BitVec w) (length : Nat) : BitVec w :=
  base + BitVec.ofNat w (2 ^ (w - length) - 1)

/-- Whether all bits of `base` after the first ones are zero. -/
def isAligned (base : BitVec w) (length : Nat) : Bool :=
  base.toNat % 2 ^ (w - length) == 0 && base.toNat + (2 ^ (w - length) - 1) < 2 ^ w

theorem sharesLead_iff_div :
    sharesLead base length a = true ↔
      a.toNat / 2 ^ (w - length) = base.toNat / 2 ^ (w - length) := by
  rw [sharesLead, beq_iff_eq, ← BitVec.toNat_inj, BitVec.toNat_ushiftRight,
    BitVec.toNat_ushiftRight, Nat.shiftRight_eq_div_pow, Nat.shiftRight_eq_div_pow]

/-- The addresses that start with the same bits are a range. -/
theorem sharesLead_iff (aligned : isAligned base length = true) :
    sharesLead base length a = true ↔ base ≤ a ∧ a ≤ lastSharing base length := by
  simp only [isAligned, Bool.and_eq_true, beq_iff_eq, decide_eq_true_eq] at aligned
  obtain ⟨hzero, hfits⟩ := aligned
  have hpos : 0 < 2 ^ (w - length) := Nat.two_pow_pos _
  have hlast : (lastSharing base length).toNat = base.toNat + (2 ^ (w - length) - 1) := by
    rw [lastSharing, BitVec.toNat_add, BitVec.toNat_ofNat, Nat.add_mod_mod, Nat.mod_eq_of_lt hfits]
  rw [sharesLead_iff_div, BitVec.le_def, BitVec.le_def, hlast]
  generalize 2 ^ (w - length) = size at hzero hpos
  obtain ⟨q, hq⟩ := Nat.dvd_of_mod_eq_zero hzero
  rw [hq, Nat.mul_div_cancel_left q hpos, Nat.div_eq_iff hpos, Nat.mul_comm q]
  omega

/-- An address that starts like one of some blocks lies in one of their ranges. -/
theorem any_sharesLead_iff {blocks : List (BitVec w × Nat)}
    (aligned : ∀ b ∈ blocks, isAligned b.1 b.2 = true) :
    (blocks.any fun (base, length) => sharesLead base length a) = true ↔
      Within (blocks.map fun b => (b.1, lastSharing b.1 b.2)) a := by
  simp only [List.any_eq_true, Within, List.mem_map]
  constructor
  · rintro ⟨b, hb, hshares⟩
    exact ⟨_, ⟨b, hb, rfl⟩, (sharesLead_iff (aligned b hb)).1 hshares⟩
  · rintro ⟨-, ⟨b, hb, rfl⟩, hrange⟩
    exact ⟨b, hb, (sharesLead_iff (aligned b hb)).2 hrange⟩

end Lead

theorem isForbidden4_iff (a : BitVec 32) : isForbidden4 a = true ↔ Within privateRanges a := by
  have hranges : privateRanges = forbiddenBlocks4.map fun b => (b.1, lastSharing b.1 b.2) := by
    decide
  rw [hranges]
  exact any_sharesLead_iff (by decide)

theorem any_forbiddenBlocks6_iff (a : BitVec 128) :
    (forbiddenBlocks6.any fun (base, length) => sharesLead base length a) = true ↔
      Within localRanges a := by
  have hranges : localRanges = forbiddenBlocks6.map fun b => (b.1, lastSharing b.1 b.2) := by
    decide
  rw [hranges]
  exact any_sharesLead_iff (by decide)

/-! ## Multicast -/

/-- The mask leaves of sixteen bits the first eight and the last four. -/
theorem and_mask (x : Nat) : x &&& 0xFF0F = x / 256 % 256 * 256 + x % 16 := by
  have hhigh : (x &&& 0xFF0F) / 256 = x / 256 % 256 := by
    rw [show (256 : Nat) = 2 ^ 8 from rfl, Nat.and_div_two_pow]
    exact Nat.and_two_pow_sub_one_eq_mod (x / 2 ^ 8) 8
  have hmid : (x &&& 0xFF0F) / 16 % 16 = 0 := by
    rw [show (16 : Nat) = 2 ^ 4 from rfl, Nat.and_div_two_pow, Nat.and_mod_two_pow]
    exact Nat.and_zero _
  have hlow : (x &&& 0xFF0F) % 16 = x % 16 := by
    rw [show (16 : Nat) = 2 ^ 4 from rfl, Nat.and_mod_two_pow]
    show x % 2 ^ 4 &&& 2 ^ 4 - 1 = _
    rw [Nat.and_two_pow_sub_one_eq_mod, Nat.mod_mod]
  omega

/-- The value of a group followed by zero groups. -/
theorem foldl_zeros (g n : Nat) :
    (List.replicate n 0).foldl (fun n g => n * 65536 + g) g = g * 65536 ^ n := by
  induction n generalizing g with
  | zero => rw [List.replicate_zero, List.foldl_nil, Nat.pow_zero, Nat.mul_one]
  | succ n ih => rw [List.replicate_succ, List.foldl_cons, ih, Nat.add_zero, Nat.pow_succ',
      Nat.mul_assoc]

/-- The value of a group followed by groups of ones, and one more. -/
theorem foldl_ones (g n : Nat) :
    (List.replicate n 0xFFFF).foldl (fun n g => n * 65536 + g) g + 1 = (g + 1) * 65536 ^ n := by
  induction n generalizing g with
  | zero => rw [List.replicate_zero, List.foldl_nil, Nat.pow_zero, Nat.mul_one]
  | succ n ih =>
      have hnext : g * 65536 + 0xFFFF + 1 = (g + 1) * 65536 := by omega
      rw [List.replicate_succ, List.foldl_cons, ih, hnext, Nat.pow_succ', Nat.mul_assoc]

/-- An address lies in the range of its first group. -/
theorem between_iff {g : Nat} (h : g < 65536) (a : BitVec 128) :
    (ofGroups (g :: List.replicate 7 0) ≤ a ∧ a ≤ ofGroups (g :: List.replicate 7 0xFFFF)) ↔
      a.toNat / 65536 ^ 7 = g := by
  have hpos : 0 < 65536 ^ 7 := Nat.pow_pos (by decide)
  have hfits : (g + 1) * 65536 ^ 7 ≤ 2 ^ 128 := Nat.mul_le_mul_right (65536 ^ 7) h
  have hfirst : (ofGroups (g :: List.replicate 7 0)).toNat = g * 65536 ^ 7 := by
    rw [ofGroups, List.foldl_cons, Nat.zero_mul, Nat.zero_add, foldl_zeros, BitVec.toNat_ofNat]
    refine Nat.mod_eq_of_lt (Nat.lt_of_lt_of_le ?_ hfits)
    exact Nat.mul_lt_mul_of_pos_right (Nat.lt_succ_self g) hpos
  have hlast : (ofGroups (g :: List.replicate 7 0xFFFF)).toNat + 1 = (g + 1) * 65536 ^ 7 := by
    have hones := foldl_ones g 7
    rw [ofGroups, List.foldl_cons, Nat.zero_mul, Nat.zero_add, BitVec.toNat_ofNat,
      Nat.mod_eq_of_lt (Nat.lt_of_succ_le (hones.trans_le hfits))]
    exact hones
  have hrange : a.toNat ≤ (ofGroups (g :: List.replicate 7 0xFFFF)).toNat ↔
      a.toNat < (g + 1) * 65536 ^ 7 := by rw [← hlast, Nat.lt_add_one_iff]
  rw [BitVec.le_def, BitVec.le_def, hfirst, hrange]
  rw [Nat.div_eq_iff hpos, Nat.succ_mul]
  exact and_congr_right fun _ => Nat.lt_iff_le_pred (Nat.add_pos_right _ hpos)

theorem isLinkMulticast_iff (a : BitVec 128) :
    isLinkMulticast a = true ↔ Within linkMulticastRanges a := by
  have hlt : a.toNat / 65536 ^ 7 < 65536 := Nat.div_lt_of_lt_mul a.isLt
  have hmask : isLinkMulticast a = true ↔ a.toNat / 65536 ^ 7 &&& 0xFF0F = 0xFF02 := by
    rw [isLinkMulticast, beq_iff_eq, ← BitVec.toNat_inj, BitVec.toNat_and,
      BitVec.toNat_ushiftRight, Nat.shiftRight_eq_div_pow]
    rfl
  have hranges : Within linkMulticastRanges a ↔
      ∃ flags < 16, a.toNat / 65536 ^ 7 = 0xFF02 + 16 * flags := by
    simp only [Within, linkMulticastRanges, List.mem_map, List.mem_range,
      exists_exists_and_eq_and]
    refine exists_congr fun flags => and_congr_right fun hflags => between_iff ?_ a
    omega
  rw [hmask, and_mask, hranges]
  generalize a.toNat / 65536 ^ 7 = group at hlt
  constructor
  · intro h
    -- The flags are the bits that the mask drops.
    exact ⟨group / 16 % 16, Nat.mod_lt _ (by decide), by omega⟩
  · rintro ⟨flags, hflags, rfl⟩
    omega

/-! ## Addresses that stand for others -/

theorem toNat_mapped (m : BitVec 32) : (mapped m).toNat = 0xFFFF * 2 ^ 32 + m.toNat := by
  have hlt : m.toNat < 2 ^ 32 := m.isLt
  simp only [mapped, ofGroups, List.foldl_cons, List.foldl_nil, BitVec.toNat_ofNat]
  omega

/-- What stands for a version 4 address, and what does not. -/
theorem mapped?_cases (a : BitVec 128) :
    (∃ m, mapped? a = some m ∧ a = mapped m) ∨
      (mapped? a = none ∧ a.toNat / 2 ^ 32 ≠ 0xFFFF) := by
  have hlead : sharesLead mappedBase 96 a = true ↔ a.toNat / 2 ^ 32 = 0xFFFF := sharesLead_iff_div
  unfold mapped?
  split
  · next h =>
    refine .inl ⟨_, rfl, BitVec.eq_of_toNat_eq ?_⟩
    have hdiv := hlead.1 h
    rw [toNat_mapped, BitVec.truncate_eq_setWidth, BitVec.toNat_setWidth]
    omega
  · next h => exact .inr ⟨rfl, fun hdiv => h (hlead.2 hdiv)⟩

theorem mapped_le_iff {m n : BitVec 32} : mapped m ≤ mapped n ↔ m ≤ n := by
  rw [BitVec.le_def, BitVec.le_def, toNat_mapped, toNat_mapped, Nat.add_le_add_iff_left]

theorem within_mappedRanges_iff (m : BitVec 32) :
    Within mappedRanges (mapped m) ↔ Within privateRanges m := by
  simp only [Within, mappedRanges, List.mem_map, exists_exists_and_eq_and, mapped_le_iff]

/-- The range of the addresses that stand for others holds all that stand for a range of them. -/
theorem div_of_within_mappedRanges {a : BitVec 128} (h : Within mappedRanges a) :
    a.toNat / 2 ^ 32 = 0xFFFF := by
  obtain ⟨r', hr, hrange⟩ := h
  obtain ⟨r, -, rfl⟩ := List.mem_map.1 hr
  have hlt : r.2.toNat < 2 ^ 32 := r.2.isLt
  rw [BitVec.le_def, BitVec.le_def, toNat_mapped, toNat_mapped] at hrange
  omega

/-- None of the other ranges touches the addresses that stand for others. -/
theorem not_within_of_mapped (m : BitVec 32) :
    ¬ Within (localRanges ++ linkMulticastRanges) (mapped m) := by
  have hlt : m.toNat < 2 ^ 32 := m.isLt
  rintro ⟨r, hr, hfirst, hlast⟩
  rw [BitVec.le_def, toNat_mapped] at hfirst hlast
  have houtside : (localRanges ++ linkMulticastRanges).all (fun r =>
      decide (r.2.toNat < 0xFFFF00000000 ∨ 0x1000000000000 ≤ r.1.toNat)) = true := by decide
  rcases of_decide_eq_true (List.all_eq_true.1 houtside r hr) with h | h <;> omega

/-! ## Both agree -/

/-- What is decided by leading bits and masks are just the ranges. -/
theorem isForbidden_iff (a : Address) : a.isForbidden = true ↔ a.Forbidden := by
  cases a with
  | v4 a => exact isForbidden4_iff a
  | v6 a =>
      simp only [isForbidden, Forbidden]
      rw [List.append_assoc, within_append]
      rcases mapped?_cases a with ⟨m, hm, rfl⟩ | ⟨hm, hdiv⟩
      · rw [hm, isForbidden4_iff, within_mappedRanges_iff]
        exact (or_iff_left (not_within_of_mapped m)).symm
      · have hnot : ¬ Within mappedRanges a := fun h => hdiv (div_of_within_mappedRanges h)
        rw [hm, Bool.or_eq_true, any_forbiddenBlocks6_iff, isLinkMulticast_iff, within_append]
        exact (or_iff_right hnot).symm

theorem isForbidden_eq_false_iff (a : Address) : a.isForbidden = false ↔ ¬ a.Forbidden := by
  rw [← isForbidden_iff, Bool.not_eq_true]

end Reachability.Address
