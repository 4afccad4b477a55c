import Reachability.Proofs.Text.Numeral
import Reachability.Time.CivilDate

set_option autoImplicit false

/-! # Dates are ordered and are read back

A date of the calendar is read back from its text (`parse?_text`). With a year of four digits that
text takes up ten bytes, which is what the names of segments rely on. -/

namespace Reachability.CivilDate

/-- A date that is in the calendar, in a year that can be named. -/
def Valid (d : CivilDate) : Prop := ofNumbers? d.year d.month d.day = some d

instance (d : CivilDate) : Decidable d.Valid :=
  inferInstanceAs (Decidable (ofNumbers? d.year d.month d.day = some d))

/-- A date of the calendar whose year has four digits. A system clock shows no others. -/
structure Plain (d : CivilDate) : Prop where
  valid : d.Valid
  year_nonneg : 0 ≤ d.year
  year_le : d.year ≤ 9999

theorem valid_iff {d : CivilDate} :
    d.Valid ↔ firstYear ≤ d.year ∧ d.year ≤ lastYear ∧ 1 ≤ d.month ∧ d.month ≤ 12 ∧ 1 ≤ d.day ∧
      d.day ≤ daysIn d.year d.month := by
  unfold Valid ofNumbers?
  split
  · next h => simpa using h
  · next h => simpa using h

theorem daysIn_le (y : Int) (month : Nat) : daysIn y month ≤ 31 := by
  unfold daysIn
  repeat' split
  all_goals decide

/-! ## Dates that are made -/

theorem valid_of_ofNumbers? {y : Int} {month day : Nat} {d : CivilDate}
    (h : ofNumbers? y month day = some d) : d.Valid := by
  have hd : ⟨y, month, day⟩ = d := by
    unfold ofNumbers? at h
    split at h
    · exact Option.some.inj h
    · cases h
  subst hd
  exact h

theorem valid_of_next? {d e : CivilDate} (h : d.next? = some e) : e.Valid := by
  unfold next? at h
  repeat' split at h
  all_goals exact valid_of_ofNumbers? h

theorem valid_of_previous? {d e : CivilDate} (h : d.previous? = some e) : e.Valid := by
  unfold previous? at h
  repeat' split at h
  all_goals exact valid_of_ofNumbers? h

/-! ## Order -/

theorem before_iff {a b : CivilDate} :
    a.before b = true ↔ a.year < b.year ∨ (a.year = b.year ∧
      (a.month < b.month ∨ (a.month = b.month ∧ a.day < b.day))) := by
  simp [before]

theorem ext_iff' {a b : CivilDate} :
    a = b ↔ a.year = b.year ∧ a.month = b.month ∧ a.day = b.day := by
  cases a
  cases b
  simp

theorem before_irrefl (a : CivilDate) : a.before a = false := by
  simp [before]

theorem before_trans {a b c : CivilDate} (hab : a.before b = true) (hbc : b.before c = true) :
    a.before c = true := by
  rw [before_iff] at *
  omega

theorem before_asymm {a b : CivilDate} (h : a.before b = true) : b.before a = false := by
  rw [← Bool.not_eq_true, before_iff]
  rw [before_iff] at h
  omega

theorem before_or_eq_or_before (a b : CivilDate) :
    a.before b = true ∨ a = b ∨ b.before a = true := by
  rw [before_iff, before_iff, ext_iff']
  omega

/-- Whether a date is not after another one. -/
def upTo (a b : CivilDate) : Prop := b.before a = false

theorem upTo_refl (a : CivilDate) : a.upTo a := before_irrefl a

theorem upTo_trans {a b c : CivilDate} (hab : a.upTo b) (hbc : b.upTo c) : a.upTo c := by
  unfold upTo at *
  rw [← Bool.not_eq_true, before_iff] at *
  omega

theorem before_or_eq_of_upTo {a b : CivilDate} (h : a.upTo b) : a.before b = true ∨ a = b := by
  rcases before_or_eq_or_before a b with hab | hab | hab
  · exact .inl hab
  · exact .inr hab
  · exact absurd (h.symm.trans hab) Bool.false_ne_true

/-! ## Reading numbers -/

theorem takeNumber?_padded {width n : Nat} (hw : 0 < width) (h : n < Nat.pow 10 width)
    (rest : List Char) : takeNumber? width (Text.padded width n ++ rest) = some (n, rest) := by
  have hl := Text.length_padded hw h
  have htake : (Text.padded width n ++ rest).take width = Text.padded width n := by
    rw [List.take_append_of_le_length (Nat.le_of_eq hl.symm), List.take_of_length_le (Nat.le_of_eq hl)]
  have hds : (Text.padded width n).takeWhile Char.isDigit = Text.padded width n := by
    simpa using (Text.takeWhile_isDigit_append (Text.padded width n) []
      (fun _ => Text.isDigit_of_mem_padded) (by simp)).1
  simp [takeNumber?, htake, hds]

theorem takePadded?_padded {width n : Nat} (hw : 0 < width) (h : n < Nat.pow 10 width)
    (rest : List Char) : takePadded? width (Text.padded width n ++ rest) = some (n, rest) := by
  rw [takePadded?, Text.dropBlank_append_of_isDigit (Text.padded_ne_nil width n)
    (fun _ => Text.isDigit_of_mem_padded), takeNumber?_padded hw h]

/-- A number that goes on as far as there are digits is read as a whole. -/
theorem takeNumber?_all (n : Nat) (rest : List Char) (h : ∀ c ∈ rest.head?, c.isDigit = false) :
    takeNumber? (Text.padded 4 n ++ rest).length (Text.padded 4 n ++ rest) = some (n, rest) := by
  have hds := (Text.takeWhile_isDigit_append (Text.padded 4 n) rest
    (fun _ => Text.isDigit_of_mem_padded) h).1
  simp only [takeNumber?, List.take_length, hds]
  simp

theorem takeYear?_yearText (y : Int) (rest : List Char) :
    takeYear? (yearText y ++ '-' :: rest) = some (y, '-' :: rest) := by
  unfold yearText
  split
  · next h =>
    have hy : y.toNat < 10000 := by omega
    have hblank := Text.dropBlank_append_of_isDigit (Text.padded_ne_nil 4 y.toNat)
      (fun _ => Text.isDigit_of_mem_padded) ('-' :: rest)
    -- The text starts with a digit, so it is not read as one with a sign.
    have hsign : ∀ c r, Text.padded 4 y.toNat ++ '-' :: rest = c :: r → c.isDigit = true := by
      intro c r hc
      cases hp : Text.padded 4 y.toNat with
      | nil => exact absurd hp (Text.padded_ne_nil 4 y.toNat)
      | cons c' r' =>
          rw [hp, List.cons_append] at hc
          rw [← (List.cons.inj hc).1]
          exact Text.isDigit_of_mem_padded (hp ▸ List.mem_cons_self ..)
    unfold takeYear?
    rw [hblank]
    split
    · next hc => exact absurd (hsign _ _ hc) (by decide)
    · next hc => exact absurd (hsign _ _ hc) (by decide)
    · rw [takeNumber?_padded (by decide) hy]
      simp only [Option.map_some, Option.some.injEq, Prod.mk.injEq, and_true]
      omega
  · next h =>
    have hall := takeNumber?_all y.natAbs ('-' :: rest) (by simp)
    split
    · next hneg =>
      rw [List.cons_append, takeYear?, Text.dropBlank_cons_of_not_isBlank (by decide)]
      simp only [hall, Option.map_some, Option.some.injEq, Prod.mk.injEq, and_true]
      omega
    · next hpos =>
      rw [List.cons_append, takeYear?, Text.dropBlank_cons_of_not_isBlank (by decide)]
      simp only [hall, Option.map_some, Option.some.injEq, Prod.mk.injEq, and_true]
      omega

/-- A date of the calendar is read back from its text. -/
theorem parse?_text {d : CivilDate} (h : d.Valid) : parse? d.text = some d := by
  have hv := valid_iff.1 h
  have hday : d.day < 100 := by
    have := daysIn_le d.year d.month
    omega
  have hmonth : d.month < 100 := by omega
  have hmonthText : ∀ rest, takePadded? 2 (Text.padded 2 d.month ++ rest) = some (d.month, rest) :=
    takePadded?_padded (by decide) hmonth
  have hdayText : takePadded? 2 (Text.padded 2 d.day) = some (d.day, []) := by
    simpa using takePadded?_padded (by decide) hday []
  simp only [parse?, text, List.append_assoc, List.cons_append, takeYear?_yearText, takeSign?,
    hmonthText, hdayText,
    Option.bind_eq_bind, Option.bind_some, if_pos, List.isEmpty_nil]
  exact h

/-! ## The form of the text -/

theorem mem_text {d : CivilDate} (h : d.Plain) {c : Char} (hc : c ∈ d.text) :
    c.isDigit = true ∨ c = '-' := by
  have hy : yearText d.year = Text.padded 4 d.year.toNat := if_pos ⟨h.year_nonneg, h.year_le⟩
  simp only [text, hy, List.append_assoc, List.cons_append, List.mem_append, List.mem_cons] at hc
  rcases hc with hc | hc | hc | hc | hc
  · exact .inl (Text.isDigit_of_mem_padded hc)
  · exact .inr hc
  · exact .inl (Text.isDigit_of_mem_padded hc)
  · exact .inr hc
  · exact .inl (Text.isDigit_of_mem_padded hc)

theorem length_text {d : CivilDate} (h : d.Plain) : d.text.length = 10 := by
  have hv := valid_iff.1 h.valid
  have hdays := daysIn_le d.year d.month
  have hyear := h.year_nonneg
  have hyear' := h.year_le
  have hy : yearText d.year = Text.padded 4 d.year.toNat := if_pos ⟨h.year_nonneg, h.year_le⟩
  have hyear'' : d.year.toNat < 10000 := by omega
  have hmonth : d.month < 100 := by omega
  have hday : d.day < 100 := by omega
  have ly : (Text.padded 4 d.year.toNat).length = 4 := Text.length_padded (by decide) hyear''
  have lm : (Text.padded 2 d.month).length = 2 := Text.length_padded (by decide) hmonth
  have ld : (Text.padded 2 d.day).length = 2 := Text.length_padded (by decide) hday
  simp [text, hy, ly, lm, ld]

end Reachability.CivilDate
