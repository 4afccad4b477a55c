import Mathlib.Algebra.Ring.Nat
import Reachability.Proofs.Time.CivilDate
import Reachability.Time.Timestamp

set_option autoImplicit false

/-! # Time stamps are read back

Every stamp of the calendar, leap seconds included, is read back from its text
(`parse?_text`). The text has only digits and a few signs. Other texts may be read as well, but only
as stamps of the calendar (`valid_of_parse?`). -/

namespace Reachability.Timestamp

/-- A stamp that names a point in time: a date of the calendar, a time of day, and nanoseconds that
    exceed a full second only in second 59. -/
structure Valid (t : Timestamp) : Prop where
  date : t.date.Valid
  hour : t.hour < 24
  minute : t.minute < 60
  second : t.second < 60
  nanos : t.nanos < 2 * secondNanos
  leap : secondNanos ≤ t.nanos → t.second = 59

/-! ## Parts of a second -/

theorem filterMap_digit? {cs : List Char} (h : ∀ c ∈ cs, c.isDigit = true) :
    cs.filterMap Text.digit? = cs.map fun c => c.toNat - '0'.toNat := by
  induction cs with
  | nil => rfl
  | cons c cs ih =>
      rw [List.filterMap_cons, Text.digit?_of_isDigit (h c (List.mem_cons_self ..)),
        ih fun d hd => h d (List.mem_cons_of_mem _ hd), List.map_cons]

theorem ofDigitChars_padded (width n : Nat) : Nat.ofDigitChars 10 (Text.padded width n) 0 = n := by
  have h := Text.natural?_padded width n
  rw [Text.natural?_of_isDigit (Text.padded_ne_nil width n)
    fun _ => Text.isDigit_of_mem_padded] at h
  exact Option.some.inj h

theorem placesNanos_padded {width n : Nat} (hw : 0 < width) (hw' : width ≤ 9)
    (h : n < Nat.pow 10 width) :
    placesNanos (Text.padded width n) = n * Nat.pow 10 (9 - width) := by
  have hl := Text.length_padded hw h
  have htake : (Text.padded width n).take 9 = Text.padded width n :=
    List.take_of_length_le (by omega)
  rw [placesNanos, htake, filterMap_digit? fun _ => Text.isDigit_of_mem_padded,
    Text.ofDigits_map_eq, ofDigitChars_padded, List.length_map, hl]

theorem takeNanos?_padded {width n : Nat} (hw : 0 < width) (hw' : width ≤ 9)
    (h : n < Nat.pow 10 width) {rest : List Char} (hrest : ∀ c ∈ rest.head?, c.isDigit = false) :
    takeNanos? ('.' :: Text.padded width n ++ rest) = some (n * Nat.pow 10 (9 - width), rest) := by
  obtain ⟨htake, hdrop⟩ := Text.takeWhile_isDigit_append (Text.padded width n) rest
    (fun _ => Text.isDigit_of_mem_padded) hrest
  rw [List.cons_append, takeNanos?, htake, hdrop]
  split
  · next hnil => exact absurd hnil (Text.padded_ne_nil width n)
  · rw [placesNanos_padded hw hw' h]

/-- The decimal places of a second are read back, whichever of the three lengths they have. -/
theorem takeNanos?_placesText {n : Nat} (h : n < secondNanos) :
    takeNanos? (placesText n ++ ['Z']) = some (n, ['Z']) := by
  have hn : n < 1000000000 := h
  have hZ : ∀ c ∈ ['Z'].head?, c.isDigit = false := by simp
  unfold placesText
  split
  · next h0 => simp [takeNanos?, h0]
  split
  · next h3 =>
    have hlt : n / 1000000 < 1000 := by omega
    have heq : n / 1000000 * 1000000 = n := by omega
    rw [takeNanos?_padded (by decide) (by decide) hlt hZ]
    exact congrArg (fun k => some (k, ['Z'])) heq
  split
  · next h6 =>
    have hlt : n / 1000 < 1000000 := by omega
    have heq : n / 1000 * 1000 = n := by omega
    rw [takeNanos?_padded (by decide) (by decide) hlt hZ]
    exact congrArg (fun k => some (k, ['Z'])) heq
  · rw [takeNanos?_padded (by decide) (by decide) hn hZ]
    exact congrArg (fun k => some (k, ['Z'])) (Nat.mul_one n)

/-! ## The whole stamp -/

/-- Without an offset the local time is the universal time. -/
theorem ofLocal?_zero {t : Timestamp} (h : t.Valid) :
    ofLocal? t.date t.hour t.minute t.second t.nanos 0 = some t := by
  have hh := h.hour
  have hm := h.minute
  have htotal : ¬ ((t.hour * 60 + t.minute : Nat) : Int) - 0 < 0 := by omega
  have hday : ¬ (1440 : Int) ≤ ((t.hour * 60 + t.minute : Nat) : Int) - 0 := by omega
  have hmod : ((((t.hour * 60 + t.minute : Nat) : Int) - 0) % 1440).toNat
      = t.hour * 60 + t.minute := by omega
  simp only [ofLocal?, if_neg htotal, if_neg hday, hmod, Option.bind_eq_bind, Option.bind_some]
  have hhour : (t.hour * 60 + t.minute) / 60 = t.hour := by omega
  have hminute : (t.hour * 60 + t.minute) % 60 = t.minute := by omega
  rw [hhour, hminute]

theorem takeOffset?_zulu : takeOffset? ['Z'] = some (0, []) := rfl

theorem ofChars?_text {t : Timestamp} (h : t.Valid) : ofChars? t.text = some t := by
  have hdate := CivilDate.valid_iff.1 h.date
  have hdays := CivilDate.daysIn_le t.date.year t.date.month
  have hh := h.hour
  have hm := h.minute
  have hs := h.second
  have hn := h.nanos
  have hleap := h.leap
  have hfrac : t.nanos % secondNanos < secondNanos := Nat.mod_lt _ (by decide)
  have hpad : ∀ {n : Nat}, n < 100 → ∀ rest,
      CivilDate.takePadded? 2 (Text.padded 2 n ++ rest) = some (n, rest) := fun hn rest =>
    CivilDate.takePadded?_padded (by decide) (by omega) rest
  have hdash : ∀ rest, Text.dropBlank ('-' :: rest) = '-' :: rest := fun rest =>
    Text.dropBlank_cons_of_not_isBlank (by decide)
  have hcolon : ∀ rest, Text.dropBlank (':' :: rest) = ':' :: rest := fun rest =>
    Text.dropBlank_cons_of_not_isBlank (by decide)
  have hZ : Text.dropBlank ['Z'] = ['Z'] := Text.dropBlank_cons_of_not_isBlank (by decide)
  have hsec : t.second + (if t.nanos < secondNanos then 0 else 1) < 100 := by split <;> omega
  simp only [ofChars?, text, CivilDate.text, List.append_assoc, List.cons_append,
    CivilDate.takeYear?_yearText, CivilDate.takeSign?, hdash, hcolon, hZ, takeDivider?,
    hpad (n := t.date.month) (by omega), hpad (n := t.date.day) (by omega),
    hpad (n := t.hour) (by omega), hpad (n := t.minute) (by omega), hpad hsec,
    takeNanos?_placesText hfrac, takeOffset?_zulu, bind, Option.bind, if_pos,
    true_or, or_true]
  rw [show CivilDate.ofNumbers? t.date.year t.date.month t.date.day = some t.date from h.date]
  dsimp only
  split
  · next hlow =>
    have hne : ¬ t.second + 0 = 60 := by omega
    rw [if_pos ⟨rfl, hh, hm, by omega⟩, if_neg hne, Nat.mod_eq_of_lt hlow]
    exact ofLocal?_zero h
  · next hlow =>
    -- A leap second is written as second 60.
    have h59 : t.second = 59 := hleap (by omega)
    have hnanos : secondNanos + t.nanos % secondNanos = t.nanos := by
      rw [Nat.mod_eq_sub_mod (by omega), Nat.mod_eq_of_lt (by omega)]
      omega
    rw [if_pos ⟨rfl, hh, hm, by omega⟩, h59, if_pos rfl, hnanos]
    have := ofLocal?_zero h
    rwa [h59] at this

/-- Every stamp is read back from its text. -/
theorem parse?_text {t : Timestamp} (h : t.Valid) : parse? (String.ofList t.text) = some t := by
  rw [parse?, String.toList_ofList, ofChars?_text h]

/-! ## What is read -/

theorem foldl_digits_lt {ds : List Nat} (h : ∀ d ∈ ds, d < 10) (n : Nat) :
    ds.foldl (fun n d => 10 * n + d) n < (n + 1) * 10 ^ ds.length := by
  induction ds generalizing n with
  | nil => simp
  | cons d ds ih =>
      have hd := h d (List.mem_cons_self ..)
      have ih := ih (fun e he => h e (List.mem_cons_of_mem _ he)) (10 * n + d)
      have hstep : (10 * n + d + 1) * 10 ^ ds.length ≤ (n + 1) * 10 * 10 ^ ds.length :=
        Nat.mul_le_mul_right _ (by omega)
      rw [List.foldl_cons, List.length_cons, Nat.pow_succ']
      calc _ < (10 * n + d + 1) * 10 ^ ds.length := ih
        _ ≤ (n + 1) * 10 * 10 ^ ds.length := hstep
        _ = (n + 1) * (10 * 10 ^ ds.length) := Nat.mul_assoc ..

/-- Decimal places stand for less than a second. -/
theorem placesNanos_lt (places : List Char) : placesNanos places < secondNanos := by
  let ds := (places.take 9).filterMap Text.digit?
  have hlength : ds.length ≤ 9 :=
    Nat.le_trans (List.length_filterMap_le ..) (List.length_take_le ..)
  have hdigits : ∀ d ∈ ds, d < 10 := by
    intro d hd
    obtain ⟨c, -, hc⟩ := List.mem_filterMap.1 hd
    unfold Text.digit? at hc
    split at hc
    · next hrange =>
      have hle : c.toNat ≤ '9'.toNat := UInt32.le_iff_toNat_le.1 hrange.2
      have hnine : '9'.toNat = 57 := rfl
      have hzero : '0'.toNat = 48 := rfl
      have hd := Option.some.inj hc
      omega
    · cases hc
  have hvalue : Text.ofDigits ds < 10 ^ ds.length := by
    simpa [Text.ofDigits] using foldl_digits_lt hdigits 0
  have hplaces : 10 ^ ds.length * 10 ^ (9 - ds.length) = secondNanos := by
    rw [← Nat.pow_add, Nat.add_sub_cancel' hlength]
    rfl
  rw [← hplaces]
  exact Nat.mul_lt_mul_of_pos_right hvalue (Nat.pow_pos (by decide))

theorem takeNanos?_lt {cs rest : List Char} {n : Nat} (h : takeNanos? cs = some (n, rest)) :
    n < secondNanos := by
  unfold takeNanos? at h
  split at h
  · split at h
    · cases h
    · cases h
      exact placesNanos_lt _
  · cases h
    decide

/-- A local time gives a stamp of the calendar, however far it is from universal time. -/
theorem valid_of_ofLocal? {date : CivilDate} {hour minute second nanos : Nat} {offset : Int}
    {t : Timestamp} (hdate : date.Valid) (hsecond : second < 60) (hnanos : nanos < 2 * secondNanos)
    (hleap : secondNanos ≤ nanos → second = 59)
    (h : ofLocal? date hour minute second nanos offset = some t) : t.Valid := by
  obtain ⟨day, hday, ht⟩ : ∃ day : CivilDate, day.Valid ∧
      some (⟨day, (((hour * 60 + minute : Nat) - offset) % 1440).toNat / 60,
        (((hour * 60 + minute : Nat) - offset) % 1440).toNat % 60, second, nanos⟩ : Timestamp)
          = some t := by
    simp only [ofLocal?, Option.bind_eq_bind] at h
    split at h
    · obtain ⟨day, hday, ht⟩ := Option.bind_eq_some_iff.1 h
      exact ⟨day, CivilDate.valid_of_previous? hday, ht⟩
    split at h
    · obtain ⟨day, hday, ht⟩ := Option.bind_eq_some_iff.1 h
      exact ⟨day, CivilDate.valid_of_next? hday, ht⟩
    · exact ⟨date, hdate, h⟩
  cases ht
  exact ⟨hday, by dsimp only; omega, by dsimp only; omega, hsecond, hnanos, hleap⟩

/-- Whatever is read as a stamp is one of the calendar. -/
theorem valid_of_parse? {s : String} {t : Timestamp} (h : parse? s = some t) : t.Valid := by
  unfold parse? ofChars? at h
  obtain ⟨⟨y, _⟩, -, h⟩ := Option.bind_eq_some_iff.1 h
  obtain ⟨_, -, h⟩ := Option.bind_eq_some_iff.1 h
  obtain ⟨⟨month, _⟩, -, h⟩ := Option.bind_eq_some_iff.1 h
  obtain ⟨_, -, h⟩ := Option.bind_eq_some_iff.1 h
  obtain ⟨⟨day, _⟩, -, h⟩ := Option.bind_eq_some_iff.1 h
  obtain ⟨_, -, h⟩ := Option.bind_eq_some_iff.1 h
  obtain ⟨⟨hour, _⟩, -, h⟩ := Option.bind_eq_some_iff.1 h
  obtain ⟨_, -, h⟩ := Option.bind_eq_some_iff.1 h
  obtain ⟨⟨minute, _⟩, -, h⟩ := Option.bind_eq_some_iff.1 h
  obtain ⟨_, -, h⟩ := Option.bind_eq_some_iff.1 h
  obtain ⟨⟨second, _⟩, -, h⟩ := Option.bind_eq_some_iff.1 h
  obtain ⟨⟨nanos, _⟩, hnanos, h⟩ := Option.bind_eq_some_iff.1 h
  obtain ⟨⟨offset, _⟩, -, h⟩ := Option.bind_eq_some_iff.1 h
  obtain ⟨date, hdate, h⟩ := Option.bind_eq_some_iff.1 h
  have hnanos := takeNanos?_lt hnanos
  have hdate := CivilDate.valid_of_ofNumbers? hdate
  split at h
  · next hrange =>
    split at h
    · exact valid_of_ofLocal? hdate (by decide) (by omega) (fun _ => rfl) h
    · exact valid_of_ofLocal? hdate (by omega) (by omega) (by omega) h
  · cases h

end Reachability.Timestamp
