import Mathlib.Data.List.Forall2
import Mathlib.Data.Nat.Digits.Defs
import Mathlib.Tactic.IntervalCases
import Reachability.Url.Host

set_option autoImplicit false

/-! # Spellings of addresses

A version 4 address can be spelled in many ways: with one to four numbers, of which the last fills
the bytes that are left, each of them in decimal, octal or hexadecimal, and with or without a final
point. `Spells` says what these are, and the reader of names knows just them
(`address4?_eq_some_iff`). They include the plain form of four bytes in decimal
(`spells_of_parse4?`), and every name that is one counts as a number and not as a domain name
(`endsInNumber_of_spells`). -/

namespace Reachability

namespace Url

/-! ## Numerals -/

/-- A character writes a digit of a base, in lower or in upper case. -/
def Writes (base : Nat) (c : Char) (d : Nat) : Prop :=
  d < base ∧ (c = Nat.digitChar d ∨ c = (Nat.digitChar d).toUpper)

instance (base : Nat) (c : Char) (d : Nat) : Decidable (Writes base c d) :=
  inferInstanceAs (Decidable (_ ∧ _))

/-- Characters write a number in a base, the most significant digit first. -/
def Numeral (base : Nat) (cs : List Char) (n : Nat) : Prop :=
  ∃ ds, List.Forall₂ (Writes base) cs ds ∧ n = Nat.ofDigits base ds.reverse

/-- One of the numbers of an address: in decimal without leading zeros, in octal after a zero, or in
    hexadecimal after `0x`, where no digit at all stands for zero. -/
inductive Part : List Char → Nat → Prop
  | zero : Part ['0'] 0
  | decimal {cs : List Char} {n : Nat} (ne : cs ≠ []) (head : cs.head? ≠ some '0')
      (writes : Numeral 10 cs n) : Part cs n
  | octal {cs : List Char} {n : Nat} (ne : cs ≠ []) (writes : Numeral 8 cs n) : Part ('0' :: cs) n
  | hexadecimal {mark : Char} {cs : List Char} {n : Nat} (isMark : mark = 'x' ∨ mark = 'X')
      (writes : Numeral 16 cs n) : Part ('0' :: mark :: cs) n

/-- The numbers of an address: all but the last are bytes, and the last fills the bytes that are
    left. -/
def Fills (parts : List Nat) (a : BitVec 32) : Prop :=
  ∃ bytes last, parts = bytes ++ [last] ∧ bytes.length < 4 ∧ (∀ b ∈ bytes, b < 256) ∧
    last < 256 ^ (4 - bytes.length) ∧
    a.toNat = Nat.ofDigits 256 bytes.reverse * 256 ^ (4 - bytes.length) + last

/-- A name spells a version 4 address. -/
def Spells (name : List Char) (a : BitVec 32) : Prop :=
  ∃ labels parts, (name = Domain.join labels ∨ name = Domain.join labels ++ ['.']) ∧
    List.Forall₂ Part labels parts ∧ Fills parts a

/-! ## Reading numerals -/

theorem mapM_eq_some_iff {α β : Type} {f : α → Option β} {l : List α} {l' : List β} :
    l.mapM f = some l' ↔ List.Forall₂ (fun a b => f a = some b) l l' := by
  induction l generalizing l' with
  | nil => simp [eq_comm]
  | cons a l ih =>
      rw [List.mapM_cons]
      constructor
      · intro h
        obtain ⟨b, hb, h⟩ := Option.bind_eq_some_iff.1 h
        obtain ⟨bs, hbs, h⟩ := Option.bind_eq_some_iff.1 h
        obtain rfl := Option.some.inj h
        exact .cons hb (ih.1 hbs)
      · rintro (_ | ⟨hb, hbs⟩)
        simp [hb, ih.2 hbs]

theorem toNat_lt_of_hexDigit? {c : Char} {d : Nat} (h : Text.hexDigit? c = some d) :
    c.toNat < 128 := by
  unfold Text.hexDigit? at h
  split at h
  · next hdigit =>
    exact Nat.lt_of_le_of_lt (Char.isDigit_iff_toNat.1 hdigit).2 (by decide)
  split at h
  · next hletter => exact Nat.lt_of_le_of_lt (Char.le_def.1 hletter.2) (by decide)
  split at h
  · next hletter => exact Nat.lt_of_le_of_lt (Char.le_def.1 hletter.2) (by decide)
  · cases h

theorem hexDigit?_eq_some_iff {c : Char} {d : Nat} :
    Text.hexDigit? c = some d ↔ Writes 16 c d := by
  constructor
  · intro h
    have hread : ∀ n < 128, ∀ d ∈ Text.hexDigit? (Char.ofNat n), Writes 16 (Char.ofNat n) d := by
      decide
    have hwrites := hread c.toNat (toNat_lt_of_hexDigit? h) d
    rw [Char.ofNat_toNat] at hwrites
    exact hwrites h
  · rintro ⟨hlt, hc⟩
    have hread : ∀ d < 16, Text.hexDigit? (Nat.digitChar d) = some d ∧
        Text.hexDigit? (Nat.digitChar d).toUpper = some d := by decide
    rcases hc with rfl | rfl
    · exact (hread d hlt).1
    · exact (hread d hlt).2

theorem filter_hexDigit?_eq_some_iff {base : Nat} (hbase : base ≤ 16) {c : Char} {d : Nat} :
    (Text.hexDigit? c).filter (· < base) = some d ↔ Writes base c d := by
  rw [Option.filter_eq_some_iff, hexDigit?_eq_some_iff, decide_eq_true_eq]
  constructor
  · rintro ⟨⟨-, hc⟩, hlt⟩
    exact ⟨hlt, hc⟩
  · rintro ⟨hlt, hc⟩
    exact ⟨⟨Nat.lt_of_lt_of_le hlt hbase, hc⟩, hlt⟩

theorem foldl_eq_ofDigits (base : Nat) (ds : List Nat) :
    ds.foldl (fun n d => n * base + d) 0 = Nat.ofDigits base ds.reverse := by
  rw [Nat.ofDigits_eq_foldr, List.foldl_eq_foldr_reverse]
  congr 1
  funext d n
  rw [Nat.mul_comm, Nat.add_comm]
  rfl

theorem digitsIn?_eq_some_iff {base : Nat} (hbase : base ≤ 16) {cs : List Char} {n : Nat} :
    digitsIn? base cs = some n ↔ Numeral base cs n := by
  rw [digitsIn?, Option.map_eq_some_iff]
  refine exists_congr fun ds => ?_
  rw [mapM_eq_some_iff, foldl_eq_ofDigits, eq_comm (a := n)]
  simp only [filter_hexDigit?_eq_some_iff hbase]

theorem isOctal_of_writes {c : Char} {d : Nat} (h : Writes 8 c d) : c ≠ 'x' ∧ c ≠ 'X' := by
  have hall : ∀ d < 8, (Nat.digitChar d).toUpper = Nat.digitChar d ∧ Nat.digitChar d ≠ 'x' ∧
      Nat.digitChar d ≠ 'X' := by decide
  obtain ⟨hlt, hc⟩ := h
  obtain ⟨hupper, hne⟩ := hall d hlt
  rw [hupper, or_self] at hc
  rwa [hc]

/-- The reader of numbers reads the numerals, each in its base. -/
theorem part?_eq_some_iff {cs : List Char} {n : Nat} : part? cs = some n ↔ Part cs n := by
  constructor
  · intro h
    unfold part? at h
    split at h
    · cases h
    · exact .hexadecimal (.inl rfl) ((digitsIn?_eq_some_iff (Nat.le_refl 16)).1 h)
    · exact .hexadecimal (.inr rfl) ((digitsIn?_eq_some_iff (Nat.le_refl 16)).1 h)
    · exact .octal (List.cons_ne_nil _ _) ((digitsIn?_eq_some_iff (by decide)).1 h)
    · next hne hx hX hoct =>
      by_cases hzero : cs = ['0']
      · rw [hzero] at h ⊢
        obtain rfl : n = 0 := (Option.some.inj h).symm
        exact .zero
      · refine .decimal hne (fun hhead => ?_) ((digitsIn?_eq_some_iff (by decide)).1 h)
        obtain ⟨rest, rfl⟩ := List.head?_eq_some_iff.1 hhead
        cases rest with
        | nil => exact hzero rfl
        | cons c rest => exact hoct c rest rfl
  · intro h
    cases h with
    | zero => rfl
    | decimal ne head writes =>
        rw [← (digitsIn?_eq_some_iff (by decide)).2 writes]
        unfold part?
        split
        · exact absurd rfl ne
        · exact absurd rfl head
        · exact absurd rfl head
        · exact absurd rfl head
        · rfl
    | @octal cs n ne writes =>
        rw [← (digitsIn?_eq_some_iff (by decide)).2 writes]
        obtain ⟨ds, hall, -⟩ := writes
        cases hall with
        | nil => exact absurd rfl ne
        | cons hc hrest =>
            obtain ⟨hx, hX⟩ := isOctal_of_writes hc
            rw [part?]
            · exact hx
            · exact hX
    | hexadecimal isMark writes =>
        rw [← (digitsIn?_eq_some_iff (Nat.le_refl 16)).2 writes]
        rcases isMark with rfl | rfl
        · rfl
        · rfl

/-! ## Putting an address together -/

/-- The value of numbers behind a value. -/
def valueAfter (room value : Nat) (bytes : List Nat) (last : Nat) : Nat :=
  (value * 256 ^ bytes.length + Nat.ofDigits 256 bytes.reverse) * 256 ^ (room - bytes.length) + last

theorem valueAfter_cons (room value n last : Nat) (bytes : List Nat) :
    valueAfter room value (n :: bytes) last
      = valueAfter (room - 1) (value * 256 + n) bytes last := by
  have hroom : room - (bytes.length + 1) = room - 1 - bytes.length := by omega
  rw [valueAfter, valueAfter, List.reverse_cons, Nat.ofDigits_append, Nat.ofDigits_singleton,
    List.length_reverse, List.length_cons, hroom]
  ring

/-- The numbers of an address fill the room that is left behind a value. -/
theorem ofParts?_eq_some_iff {room value : Nat} (hroom : 0 < room) {parts : List Nat}
    {a : BitVec 32} :
    ofParts? room value parts = some a ↔ ∃ bytes last, parts = bytes ++ [last] ∧
      bytes.length < room ∧ (∀ b ∈ bytes, b < 256) ∧ last < 256 ^ (room - bytes.length) ∧
      a = BitVec.ofNat 32 (valueAfter room value bytes last) := by
  induction parts generalizing room value with
  | nil => simp [ofParts?]
  | cons n rest ih =>
    cases rest with
    | nil =>
        have hread : ofParts? room value [n] = some a ↔
            n < 256 ^ room ∧ a = BitVec.ofNat 32 (value * 256 ^ room + n) := by
          simp [ofParts?, eq_comm]
        rw [hread]
        constructor
        · rintro ⟨hlt, ha⟩
          exact ⟨[], n, rfl, hroom, nofun, hlt, by simpa [valueAfter] using ha⟩
        · rintro ⟨bytes, last, hparts, -, -, hlt, ha⟩
          cases bytes with
          | nil =>
              obtain rfl := (List.cons.inj hparts).1
              exact ⟨hlt, by simpa [valueAfter] using ha⟩
          | cons b bytes => simp at hparts
    | cons m rest =>
        have hread : ofParts? room value (n :: m :: rest) = some a ↔
            (n < 256 ∧ 1 < room) ∧ ofParts? (room - 1) (value * 256 + n) (m :: rest) = some a := by
          rw [ofParts?]
          · split
            · next h => exact (and_iff_right h).symm
            · next h => exact iff_of_false nofun fun hgo => h hgo.1
          · exact List.cons_ne_nil m rest
        rw [hread]
        constructor
        · rintro ⟨⟨hn, hmore⟩, hrest⟩
          obtain ⟨bytes, last, hparts, hlength, hbytes, hlt, ha⟩ :=
            (ih (Nat.sub_pos_of_lt hmore)).1 hrest
          refine ⟨n :: bytes, last, congrArg (n :: ·) hparts, ?_, ?_, ?_, ?_⟩
          · rw [List.length_cons]
            omega
          · exact List.forall_mem_cons.2 ⟨hn, hbytes⟩
          · rw [List.length_cons, Nat.add_comm, ← Nat.sub_sub]
            exact hlt
          · rw [ha, valueAfter_cons]
        · rintro ⟨bytes, last, hparts, hlength, hbytes, hlt, ha⟩
          cases bytes with
          | nil => simp at hparts
          | cons b bytes =>
              obtain ⟨rfl, htail⟩ := List.cons.inj hparts
              obtain ⟨hn, hbytes⟩ := List.forall_mem_cons.1 hbytes
              rw [List.length_cons] at hlength
              rw [List.length_cons, Nat.add_comm, ← Nat.sub_sub] at hlt
              have hmore : 1 < room := by omega
              refine ⟨⟨hn, hmore⟩, (ih (Nat.sub_pos_of_lt hmore)).2
                ⟨bytes, last, htail, by omega, hbytes, hlt, ?_⟩⟩
              rw [ha, valueAfter_cons]

/-- An address has room for its numbers. -/
theorem valueAfter_lt {bytes : List Nat} {last : Nat} (hlength : bytes.length < 4)
    (hbytes : ∀ b ∈ bytes, b < 256) (hlast : last < 256 ^ (4 - bytes.length)) :
    valueAfter 4 0 bytes last < 2 ^ 32 := by
  have hdigits : Nat.ofDigits 256 bytes.reverse < 256 ^ bytes.length := by
    have hlt := Nat.ofDigits_lt_base_pow_length (b := 256) (by decide)
      fun b hb => hbytes b (List.mem_reverse.1 hb)
    rwa [List.length_reverse] at hlt
  have hsplit : 256 ^ bytes.length * 256 ^ (4 - bytes.length) = 2 ^ 32 := by
    rw [← Nat.pow_add, Nat.add_sub_cancel' (Nat.le_of_lt hlength)]
    rfl
  rw [valueAfter, Nat.zero_mul, Nat.zero_add, ← hsplit]
  calc Nat.ofDigits 256 bytes.reverse * 256 ^ (4 - bytes.length) + last
      < (Nat.ofDigits 256 bytes.reverse + 1) * 256 ^ (4 - bytes.length) := by
        rw [Nat.succ_mul]
        omega
    _ ≤ 256 ^ bytes.length * 256 ^ (4 - bytes.length) := Nat.mul_le_mul_right _ hdigits

theorem ofParts?_eq_some_iff_fills {parts : List Nat} {a : BitVec 32} :
    ofParts? 4 0 parts = some a ↔ Fills parts a := by
  rw [ofParts?_eq_some_iff (by decide), Fills]
  refine exists_congr fun bytes => exists_congr fun last => and_congr_right fun _ =>
    and_congr_right fun hlength => and_congr_right fun hbytes => and_congr_right fun hlast => ?_
  have hvalue : valueAfter 4 0 bytes last =
      Nat.ofDigits 256 bytes.reverse * 256 ^ (4 - bytes.length) + last := by
    rw [valueAfter, Nat.zero_mul, Nat.zero_add]
  rw [← hvalue, ← BitVec.toNat_inj, BitVec.toNat_ofNat,
    Nat.mod_eq_of_lt (valueAfter_lt hlength hbytes hlast)]

/-! ## Labels -/

theorem splitAt_eq_splitOn (sep : Char) (cs : List Char) :
    Address.splitAt sep cs = cs.splitOn sep := by
  induction cs with
  | nil => rfl
  | cons c cs ih =>
      rw [List.splitOn_cons_eq_if_modifyHead, Address.splitAt, ih]
      by_cases hc : c = sep
      · rw [if_pos hc, if_pos (by simpa using hc)]
      · rw [if_neg hc, if_neg (by simpa using hc)]
        cases hsplit : cs.splitOn sep with
        | nil => exact absurd hsplit (List.splitOn_ne_nil sep cs)
        | cons part rest => rfl

theorem join_splitAt (name : List Char) : Domain.join (Address.splitAt '.' name) = name := by
  rw [splitAt_eq_splitOn, Domain.join, List.intercalate_splitOn]

theorem splitAt_join {labels : List (List Char)} (hne : labels ≠ [])
    (hlabels : ∀ l ∈ labels, '.' ∉ l) : Address.splitAt '.' (Domain.join labels) = labels := by
  rw [splitAt_eq_splitOn, Domain.join, List.splitOn_intercalate '.' hlabels hne]

/-- A final point makes one more label, which is empty. -/
theorem splitAt_append_point (name : List Char) :
    Address.splitAt '.' (name ++ ['.']) = Address.splitAt '.' name ++ [[]] := by
  rw [splitAt_eq_splitOn, List.splitOn_append_cons_self, splitAt_eq_splitOn]
  rfl

theorem join_append_nil {labels : List (List Char)} (hne : labels ≠ []) :
    Domain.join (labels ++ [[]]) = Domain.join labels ++ ['.'] := by
  induction labels with
  | nil => exact absurd rfl hne
  | cons label labels ih =>
      cases labels with
      | nil => simp [Domain.join]
      | cons next labels =>
          have ih := ih (List.cons_ne_nil next labels)
          simp only [Domain.join, List.cons_append, List.intercalate_cons_cons] at ih ⊢
          rw [ih]
          simp

/-- The labels that count are those of the name, or of the name without its final point. -/
theorem eq_join_countedLabels (name : List Char) :
    name = Domain.join (countedLabels name) ∨ name = Domain.join (countedLabels name) ++ ['.'] := by
  have hname := join_splitAt name
  simp only [countedLabels]
  split
  · next h =>
    obtain ⟨front, hfront⟩ := List.getLast?_eq_some_iff.1 h.2
    have hne : front ≠ [] := fun he => h.1 (by rw [hfront, he]; rfl)
    rw [hfront] at hname ⊢
    rw [join_append_nil hne] at hname
    rw [List.dropLast_concat]
    exact .inr hname.symm
  · exact .inl hname.symm

theorem countedLabels_of_join {name : List Char} {labels : List (List Char)} (hne : labels ≠ [])
    (hlabels : ∀ l ∈ labels, l ≠ [] ∧ '.' ∉ l)
    (hname : name = Domain.join labels ∨ name = Domain.join labels ++ ['.']) :
    countedLabels name = labels := by
  have hsplit := splitAt_join hne fun l hl => (hlabels l hl).2
  rcases hname with rfl | rfl
  · simp only [countedLabels, hsplit]
    refine if_neg fun h => ?_
    exact (hlabels [] (List.mem_of_getLast? h.2)).1 rfl
  · simp only [countedLabels, splitAt_append_point, hsplit]
    have hlength : (labels ++ [[]]).length ≠ 1 := by
      rw [List.length_append, List.length_singleton]
      have hpos := List.length_pos_iff.2 hne
      omega
    rw [if_pos ⟨hlength, List.getLast?_concat⟩, List.dropLast_concat]

/-! ## Names of numbers -/

theorem ne_point_of_writes {base : Nat} (hbase : base ≤ 16) {c : Char} {d : Nat}
    (h : Writes base c d) : '.' ≠ c := by
  have hall : ∀ d < 16, '.' ≠ Nat.digitChar d ∧ '.' ≠ (Nat.digitChar d).toUpper := by decide
  obtain ⟨hlower, hupper⟩ := hall d (Nat.lt_of_lt_of_le h.1 hbase)
  rcases h.2 with rfl | rfl
  · exact hlower
  · exact hupper

theorem not_point_of_numeral {base : Nat} (hbase : base ≤ 16) {cs : List Char} {n : Nat}
    (h : Numeral base cs n) : '.' ∉ cs := by
  obtain ⟨ds, hall, -⟩ := h
  induction hall with
  | nil => exact List.not_mem_nil
  | cons hc hrest ih => exact List.not_mem_cons_of_ne_of_not_mem (ne_point_of_writes hbase hc) ih

theorem label_of_part {cs : List Char} {n : Nat} (h : Part cs n) : cs ≠ [] ∧ '.' ∉ cs := by
  cases h with
  | zero => decide
  | decimal ne head writes => exact ⟨ne, not_point_of_numeral (by decide) writes⟩
  | octal ne writes =>
      have hrest := not_point_of_numeral (by decide) writes
      exact ⟨List.cons_ne_nil _ _, List.not_mem_cons_of_ne_of_not_mem (by decide) hrest⟩
  | hexadecimal isMark writes =>
      have hrest := not_point_of_numeral (Nat.le_refl 16) writes
      refine ⟨List.cons_ne_nil _ _, List.not_mem_cons_of_ne_of_not_mem (by decide) ?_⟩
      rcases isMark with rfl | rfl
      · exact List.not_mem_cons_of_ne_of_not_mem (by decide) hrest
      · exact List.not_mem_cons_of_ne_of_not_mem (by decide) hrest

theorem exists_part_of_mem {labels : List (List Char)} {parts : List Nat}
    (h : List.Forall₂ Part labels parts) : ∀ l ∈ labels, ∃ n, Part l n := by
  induction h with
  | nil => exact nofun
  | cons hpart hrest ih => exact List.forall_mem_cons.2 ⟨⟨_, hpart⟩, ih⟩

/-- The labels of a spelling are the labels that count. -/
theorem countedLabels_of_spelling {name : List Char} {labels : List (List Char)} {parts : List Nat}
    {a : BitVec 32} (hname : name = Domain.join labels ∨ name = Domain.join labels ++ ['.'])
    (hparts : List.Forall₂ Part labels parts) (hfills : Fills parts a) :
    labels ≠ [] ∧ countedLabels name = labels := by
  have hne : labels ≠ [] := by
    rintro rfl
    obtain ⟨bytes, last, hsplit, -⟩ := hfills
    cases hparts
    simp at hsplit
  refine ⟨hne, countedLabels_of_join hne (fun l hl => ?_) hname⟩
  obtain ⟨n, hpart⟩ := exists_part_of_mem hparts l hl
  exact label_of_part hpart

/-- The reader of names of numbers knows the spellings, and gives the address that each one
    spells. -/
theorem address4?_eq_some_iff {name : List Char} {a : BitVec 32} :
    address4? name = some a ↔ Spells name a := by
  have hparts : ∀ labels parts,
      labels.mapM part? = some parts ↔ List.Forall₂ Part labels parts := by
    intro labels parts
    rw [mapM_eq_some_iff]
    simp only [part?_eq_some_iff]
  constructor
  · intro h
    obtain ⟨parts, hread, haddress⟩ := Option.bind_eq_some_iff.1 h
    exact ⟨countedLabels name, parts, eq_join_countedLabels name, (hparts _ _).1 hread,
      ofParts?_eq_some_iff_fills.1 haddress⟩
  · rintro ⟨labels, parts, hname, hall, hfills⟩
    obtain ⟨-, hlabels⟩ := countedLabels_of_spelling hname hall hfills
    rw [address4?, hlabels]
    exact Option.bind_eq_some_iff.2
      ⟨parts, (hparts _ _).2 hall, ofParts?_eq_some_iff_fills.2 hfills⟩

/-- Three numbers, in hexadecimal, in decimal and in octal, and a final point. -/
example : Spells "0X7f.0.01.".toList (Address.ofOctets 127 0 0 1) :=
  address4?_eq_some_iff.1 (by decide)

/-- A spelling counts as a number. -/
theorem endsInNumber_of_spells {name : List Char} {a : BitVec 32} (h : Spells name a) :
    endsInNumber name = true := by
  obtain ⟨labels, parts, hname, hall, hfills⟩ := h
  obtain ⟨hne, hlabels⟩ := countedLabels_of_spelling hname hall hfills
  have hlast := List.getLast?_eq_some_getLast hne
  obtain ⟨n, hpart⟩ := exists_part_of_mem hall _ (List.getLast_mem hne)
  rw [endsInNumber, hlabels, hlast]
  dsimp only
  rw [part?_eq_some_iff.2 hpart]
  exact Bool.or_true _

/-! ## Four bytes in decimal -/

theorem writes_of_digit? {c : Char} {d : Nat} (h : Text.digit? c = some d) : Writes 10 c d := by
  have hread : ∀ n < 128, ∀ d ∈ Text.digit? (Char.ofNat n), Writes 10 (Char.ofNat n) d := by decide
  have hlt : c.toNat < 128 := by
    unfold Text.digit? at h
    split at h
    · next hdigit => exact Nat.lt_of_le_of_lt (Char.le_def.1 hdigit.2) (by decide)
    · cases h
  have hwrites := hread c.toNat hlt d
  rw [Char.ofNat_toNat] at hwrites
  exact hwrites h

theorem numeral_of_natural? {cs : List Char} {n : Nat} (h : Text.natural? cs = some n) :
    cs ≠ [] ∧ Numeral 10 cs n := by
  unfold Text.natural? at h
  split at h
  · cases h
  · next hne =>
    obtain ⟨ds, hds, rfl⟩ := Option.map_eq_some_iff.1 h
    refine ⟨fun he => hne (List.isEmpty_iff.2 he), ds,
      (mapM_eq_some_iff.1 hds).imp fun _ _ => writes_of_digit?, ?_⟩
    rw [← foldl_eq_ofDigits, Text.ofDigits]
    simp only [Nat.mul_comm]

/-- A byte in decimal is a numeral: it has no leading zero. -/
theorem part_of_octet? {cs : List Char} {n : Nat} (h : Address.octet? cs = some n) :
    Part cs n ∧ n < 256 := by
  unfold Address.octet? at h
  split at h
  · next hshape =>
    obtain ⟨hread, hlt⟩ := Option.filter_eq_some_iff.1 h
    obtain ⟨hne, hnumeral⟩ := numeral_of_natural? hread
    refine ⟨?_, of_decide_eq_true hlt⟩
    by_cases hhead : cs.head? = some '0'
    · have hlength := hshape.2.resolve_right fun hno => hno hhead
      obtain ⟨rest, rfl⟩ := List.head?_eq_some_iff.1 hhead
      obtain rfl : rest = [] :=
        List.length_eq_zero_iff.1 (Nat.le_zero.1 (Nat.le_of_succ_le_succ hlength))
      obtain rfl : n = 0 := (Option.some.inj hread).symm
      exact .zero
    · exact .decimal hne hhead hnumeral
  · cases h

theorem fills_octets {a b c d : Nat} (ha : a < 256) (hb : b < 256) (hc : c < 256) (hd : d < 256) :
    Fills [a, b, c, d] (Address.ofOctets a b c d) := by
  refine ⟨[a, b, c], d, rfl, Nat.lt_succ_self 3, by simp [ha, hb, hc], hd, ?_⟩
  have hvalue : Nat.ofDigits 256 [a, b, c].reverse * 256 ^ (4 - [a, b, c].length) + d =
      ((a * 256 + b) * 256 + c) * 256 + d := by
    simp [Nat.ofDigits_cons]
    ring
  rw [hvalue, Address.ofOctets, BitVec.toNat_ofNat]
  omega

/-- Four bytes in decimal spell the address that they are. -/
theorem spells_of_parse4? {name : List Char} {a : BitVec 32} (h : Address.parse4? name = some a) :
    Spells name a := by
  unfold Address.parse4? at h
  split at h
  · next b₁ b₂ b₃ b₄ hbytes =>
    obtain rfl := Option.some.inj h
    have hall : List.Forall₂ (fun cs n => Part cs n ∧ n < 256) (Address.splitAt '.' name)
        [b₁, b₂, b₃, b₄] := (mapM_eq_some_iff.1 hbytes).imp fun _ _ => part_of_octet?
    refine ⟨Address.splitAt '.' name, [b₁, b₂, b₃, b₄], .inl (join_splitAt name).symm,
      hall.imp fun _ _ h => h.1, ?_⟩
    generalize Address.splitAt '.' name = labels at hall
    rcases hall with _ | ⟨h₁, _ | ⟨h₂, _ | ⟨h₃, _ | ⟨h₄, -⟩⟩⟩⟩
    exact fills_octets h₁.2 h₂.2 h₃.2 h₄.2
  · cases h

end Url

end Reachability
