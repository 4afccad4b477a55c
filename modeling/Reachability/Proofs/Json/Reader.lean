import Reachability.Proofs.Json.Numeral
import Reachability.Proofs.Json.Text

set_option autoImplicit false

/-! # Written values are read back

`Reads cs v` says that the reader makes the value `v` of the text `cs` wherever a value may stand
and whatever follows, as long as that does not continue a number. Strings, numbers, arrays and
objects in the compact form are read in this sense, so the proofs follow the shape of what is
written. -/

namespace Reachability.Json

open Text (utf8)

/-! ## Signs -/

/-- The bytes do not go on with a number. -/
def EndsNumeral (bs : List UInt8) : Prop :=
  ∃ b rest, bs = b :: rest ∧ inNumeral (Char.ofUInt8 b) = false

theorem endsNumeral_cons {c : Char} (hc : c.toNat < 128) (hn : inNumeral c = false)
    (cs : List Char) (rest : List UInt8) : EndsNumeral (utf8 (c :: cs) ++ rest) :=
  ⟨_, _, by rw [Text.utf8_cons_of_lt hc, List.cons_append], by rw [Text.ofUInt8_ofNat hc]; exact hn⟩

/-- The characters that are tokens by themselves. -/
def signs : List Char := ['[', ']', '\x7b', '\x7d', ',', ':']

theorem step?_sign {c : Char} (hc : c ∈ signs) (b : Builder) :
    Reader.step? ⟨.between, b⟩ (UInt8.ofNat c.toNat)
      = (Reader.emit? b (signToken? c)).map (⟨.between, ·⟩) := by
  simp only [signs, List.mem_cons, List.not_mem_nil, or_false] at hc
  rcases hc with rfl | rfl | rfl | rfl | rfl | rfl <;> rfl

/-- A sign between two tokens is handed to the builder. -/
theorem run?_sign {c : Char} (hc : c ∈ signs) (b : Builder) (cs : List Char) (rest : List UInt8) :
    Reader.run? ⟨.between, b⟩ (utf8 (c :: cs) ++ rest)
      = (Reader.emit? b (signToken? c)).bind fun b' =>
          Reader.run? ⟨.between, b'⟩ (utf8 cs ++ rest) := by
  have hlt : c.toNat < 128 := by
    simp only [signs, List.mem_cons, List.not_mem_nil, or_false] at hc
    rcases hc with rfl | rfl | rfl | rfl | rfl | rfl <;> decide
  rw [Text.utf8_cons_of_lt hlt, List.cons_append, Reader.run?_cons, step?_sign hc]
  cases Reader.emit? b (signToken? c) <;> rfl

/-! ## Values -/

/-- A builder that expects a value; what is open then are the given frames. -/
inductive Expects : Builder → List Frame → Prop where
  | value (frames : List Frame) : Expects ⟨frames, .value⟩ frames
  | firstItem (frames : List Frame) : Expects ⟨frames, .firstItem⟩ (.array [] :: frames)

theorem push?_scalar {b : Builder} {frames : List Frame} (h : Expects b frames) (v : Json) :
    b.push? (.scalar v) = some ⟨frames, .complete v⟩ := by
  cases h <;> rfl

theorem push?_beginArray {b : Builder} {frames : List Frame} (h : Expects b frames) :
    b.push? .beginArray = some ⟨frames, .firstItem⟩ := by
  cases h <;> rfl

theorem push?_beginObject {b : Builder} {frames : List Frame} (h : Expects b frames) :
    b.push? .beginObject = some ⟨frames, .firstKey⟩ := by
  cases h <;> rfl

/-- The text is read as the value, wherever a value may stand. -/
def Reads (cs : List Char) (v : Json) : Prop :=
  ∀ (b : Builder) (frames : List Frame) (rest : List UInt8), Expects b frames → EndsNumeral rest →
    Reader.run? ⟨.between, b⟩ (utf8 cs ++ rest)
      = Reader.run? ⟨.between, ⟨frames, .complete v⟩⟩ rest

theorem reads_quoted (s : String) : Reads (quoted s) (.text (some s)) := by
  intro b frames rest hb _
  rw [Reader.run?_append, run?_quoted, push?_scalar hb]
  rfl

/-- The scanner takes the digits of a number one after the other. -/
theorem run?_digits {cs : List Char} (h : ∀ c ∈ cs, c.isDigit = true) (read : List Char)
    (b : Builder) (rest : List UInt8) :
    Reader.run? ⟨.numeral read, b⟩ (utf8 cs ++ rest)
      = Reader.run? ⟨.numeral (cs.reverse ++ read), b⟩ rest := by
  induction cs generalizing read with
  | nil => rfl
  | cons c cs ih =>
      have hc := h c (List.mem_cons_self ..)
      have hlt : c.toNat < 128 := by
        have := Text.toNat_of_isDigit hc
        omega
      have hin : inNumeral c = true := by simp [inNumeral, hc]
      rw [Text.utf8_cons_of_lt hlt, List.cons_append, Reader.run?_cons]
      simp only [Reader.step?, Text.ofUInt8_ofNat hlt, hin, if_true, Option.bind_some]
      rw [ih fun d hd => h d (List.mem_cons_of_mem _ hd)]
      simp

/-- What ends a number first completes it. -/
theorem run?_numeral_end {read : List Char} {b : Builder} {rest : List UInt8}
    (hrest : EndsNumeral rest) :
    Reader.run? ⟨.numeral read, b⟩ rest
      = (Reader.emit? b (numeralToken? read.reverse)).bind fun b' =>
          Reader.run? ⟨.between, b'⟩ rest := by
  obtain ⟨x, rest, rfl, hx⟩ := hrest
  simp only [Reader.run?_cons, Reader.step?, hx, Bool.false_eq_true, if_false]
  cases Reader.emit? b (numeralToken? read.reverse) <;> rfl

theorem reads_decimal (n : Nat) : Reads (Text.decimal n) (.number (.ofNat n)) := by
  intro b frames rest hb hrest
  obtain ⟨c, cs, hcs⟩ := List.exists_cons_of_ne_nil (Text.decimal_ne_nil n)
  have hdigits : ∀ d ∈ c :: cs, d.isDigit = true := fun d hd =>
    Text.isDigit_of_mem_decimal (hcs ▸ hd)
  have hc := hdigits c (List.mem_cons_self ..)
  have hcode := Text.toNat_of_isDigit hc
  have hlt : c.toNat < 128 := by omega
  have hne : ∀ d : Char, ¬ (48 ≤ d.toNat ∧ d.toNat ≤ 57) → c ≠ d := fun d hd he => hd (he ▸ hcode)
  have hstart : Reader.step? ⟨.between, b⟩ (UInt8.ofNat c.toNat) = some ⟨.numeral [c], b⟩ := by
    have hlower : c.isLower = false := by
      have hle : ¬ 'a'.val ≤ c.val := fun hle => by
        have : 97 ≤ c.toNat := UInt32.le_iff_toNat_le.1 hle
        omega
      show (decide (c.val ≥ 'a'.val) && decide (c.val ≤ 'z'.val)) = false
      rw [decide_eq_false hle, Bool.false_and]
    simp only [Reader.step?, Reader.begin?, Text.ofUInt8_ofNat hlt, hlower, hc]
    simp [hne ' ' (by decide), hne '\n' (by decide), hne '\t' (by decide), hne '\r' (by decide),
      hne '"' (by decide)]
  rw [hcs, Text.utf8_cons_of_lt hlt, List.cons_append, Reader.run?_cons, hstart, Option.bind_some,
    run?_digits fun d hd => hdigits d (List.mem_cons_of_mem _ hd), run?_numeral_end hrest]
  have hread : (cs.reverse ++ [c]).reverse = Text.decimal n := by simp [hcs]
  rw [hread, numeralToken?, Numeral.parse?_decimal, Option.map_some, Reader.emit?, Option.bind_some,
    push?_scalar hb, Option.bind_some]

/-! ## Arrays -/

/-- Items with commas between them and a bracket at the end complete the array that they are in. -/
theorem run?_items {ps : List (List Char × Json)} (hne : ps ≠ []) (h : ∀ p ∈ ps, Reads p.1 p.2)
    {b : Builder} {items : List Json} {frames : List Frame} (hb : Expects b (.array items :: frames))
    (rest : List UInt8) :
    Reader.run? ⟨.between, b⟩ (utf8 (commas (ps.map (·.1)) ++ [']']) ++ rest)
      = Reader.run? ⟨.between, ⟨frames, .complete (.array (items.reverse ++ ps.map (·.2)))⟩⟩ rest := by
  -- On the items that are left; those that have been read are in the innermost frame.
  induction ps generalizing b items with
  | nil => exact absurd rfl hne
  | cons p ps ih =>
      obtain ⟨cs, v⟩ := p
      have hv := h _ (List.mem_cons_self ..)
      cases ps with
      | nil =>
          have hend : EndsNumeral (utf8 [']'] ++ rest) :=
            endsNumeral_cons (by decide) (by decide) [] rest
          simp only [List.map_cons, List.map_nil, commas, Text.utf8_append, List.append_assoc]
          rw [hv b _ _ hb hend, run?_sign (by decide)]
          show Reader.run? ⟨.between, ⟨frames, .complete (.array (v :: items).reverse)⟩⟩ rest = _
          rw [List.reverse_cons]
      | cons q ps =>
          have hend : EndsNumeral (utf8 (',' :: (commas ((q :: ps).map (·.1)) ++ [']'])) ++ rest) :=
            endsNumeral_cons (by decide) (by decide) _ rest
          have hmore : commas (((cs, v) :: q :: ps).map (·.1))
              = cs ++ ',' :: commas ((q :: ps).map (·.1)) := rfl
          rw [hmore, List.append_assoc, List.cons_append, Text.utf8_append, List.append_assoc,
            hv b _ _ hb hend, run?_sign (by decide)]
          show Reader.run? ⟨.between, ⟨.array (v :: items) :: frames, .value⟩⟩ _ = _
          rw [ih (List.cons_ne_nil q ps) (fun r hr => h r (List.mem_cons_of_mem _ hr)) (.value _)]
          simp

theorem reads_bracketed (ps : List (List Char × Json)) (h : ∀ p ∈ ps, Reads p.1 p.2) :
    Reads (bracketed (ps.map (·.1))) (.array (ps.map (·.2))) := by
  intro b frames rest hb _
  rw [bracketed, List.cons_append, run?_sign (by decide)]
  show (b.push? .beginArray).bind _ = _
  rw [push?_beginArray hb, Option.bind_some]
  cases ps with
  | nil =>
      simp only [List.map_nil, commas, List.nil_append]
      rw [run?_sign (by decide)]
      rfl
  | cons p ps => exact run?_items (List.cons_ne_nil p ps) h (.firstItem frames) rest

/-! ## Objects -/

/-- A builder that expects a key; the fields before it, last first, and what is open around the
    object. -/
inductive ExpectsKey : Builder → List (Option String × Json) → List Frame → Prop where
  | first (frames : List Frame) : ExpectsKey ⟨frames, .firstKey⟩ [] frames
  | later (fields : List (Option String × Json)) (frames : List Frame) :
      ExpectsKey ⟨frames, .key fields⟩ fields frames

theorem push?_key {b : Builder} {fields : List (Option String × Json)} {frames : List Frame}
    (h : ExpectsKey b fields frames) (k : Option String) :
    b.push? (.scalar (.text k)) = some ⟨frames, .colon fields k⟩ := by
  cases h <;> rfl

/-- A written field is read as its key and its value. -/
theorem run?_field {name : String} {cs : List Char} {v : Json} (hv : Reads cs v) {b : Builder}
    {fields : List (Option String × Json)} {frames : List Frame} (hb : ExpectsKey b fields frames)
    {rest : List UInt8} (hrest : EndsNumeral rest) :
    Reader.run? ⟨.between, b⟩ (utf8 (field name cs) ++ rest)
      = Reader.run? ⟨.between, ⟨.object fields (some name) :: frames, .complete v⟩⟩ rest := by
  rw [field, Text.utf8_append, List.append_assoc, Reader.run?_append, run?_quoted, push?_key hb,
    Option.map_some, Option.bind_some, run?_sign (by decide)]
  exact hv _ _ rest (.value _) hrest

/-- Fields with commas between them and a brace at the end complete the object that they are in. -/
theorem run?_fields {fs : List (String × List Char × Json)} (hne : fs ≠ [])
    (h : ∀ f ∈ fs, Reads f.2.1 f.2.2) {b : Builder} {fields : List (Option String × Json)}
    {frames : List Frame} (hb : ExpectsKey b fields frames) (rest : List UInt8) :
    Reader.run? ⟨.between, b⟩
        (utf8 (commas (fs.map fun f => field f.1 f.2.1) ++ ['\x7d']) ++ rest)
      = Reader.run? ⟨.between, ⟨frames, .complete (.object
          (fields.reverse ++ fs.map fun f => (some f.1, f.2.2)))⟩⟩ rest := by
  -- On the fields that are left, as for arrays.
  induction fs generalizing b fields with
  | nil => exact absurd rfl hne
  | cons f fs ih =>
      obtain ⟨name, cs, v⟩ := f
      have hv : Reads cs v := h _ (List.mem_cons_self ..)
      cases fs with
      | nil =>
          have hend : EndsNumeral (utf8 ['\x7d'] ++ rest) :=
            endsNumeral_cons (by decide) (by decide) [] rest
          simp only [List.map_cons, List.map_nil, commas, Text.utf8_append, List.append_assoc]
          rw [run?_field hv hb hend, run?_sign (by decide)]
          show Reader.run? ⟨.between, ⟨frames, .complete (.object
            ((some name, v) :: fields).reverse)⟩⟩ rest = _
          rw [List.reverse_cons]
      | cons g fs =>
          have hend : EndsNumeral (utf8 (',' ::
              (commas ((g :: fs).map fun f => field f.1 f.2.1) ++ ['\x7d'])) ++ rest) :=
            endsNumeral_cons (by decide) (by decide) _ rest
          have hmore : commas (((name, cs, v) :: g :: fs).map fun f => field f.1 f.2.1)
              = field name cs ++ ',' :: commas ((g :: fs).map fun f => field f.1 f.2.1) := rfl
          rw [hmore, List.append_assoc, List.cons_append, Text.utf8_append, List.append_assoc,
            run?_field hv hb hend, run?_sign (by decide)]
          show Reader.run? ⟨.between, ⟨frames, .key ((some name, v) :: fields)⟩⟩ _ = _
          rw [ih (List.cons_ne_nil g fs) (fun r hr => h r (List.mem_cons_of_mem _ hr)) (.later _ _)]
          simp

/-- An object ends with its brace, so what follows does not matter. -/
theorem run?_braced (fs : List (String × List Char × Json)) (h : ∀ f ∈ fs, Reads f.2.1 f.2.2)
    {b : Builder} {frames : List Frame} (hb : Expects b frames) (rest : List UInt8) :
    Reader.run? ⟨.between, b⟩ (utf8 (braced (fs.map fun f => field f.1 f.2.1)) ++ rest)
      = Reader.run? ⟨.between, ⟨frames, .complete (.object
          (fs.map fun f => (some f.1, f.2.2)))⟩⟩ rest := by
  rw [braced, List.cons_append, run?_sign (by decide)]
  show (b.push? .beginObject).bind _ = _
  rw [push?_beginObject hb, Option.bind_some]
  cases fs with
  | nil =>
      simp only [List.map_nil, commas, List.nil_append]
      rw [run?_sign (by decide)]
      rfl
  | cons f fs => exact run?_fields (List.cons_ne_nil f fs) h (.first frames) rest

theorem reads_braced (fs : List (String × List Char × Json)) (h : ∀ f ∈ fs, Reads f.2.1 f.2.2) :
    Reads (braced (fs.map fun f => field f.1 f.2.1))
      (.object (fs.map fun f => (some f.1, f.2.2))) :=
  fun _ _ rest hb _ => run?_braced fs h hb rest

/-- A written object is read as a whole text, also with blanks after it. -/
theorem parse?_braced (fs : List (String × List Char × Json)) (h : ∀ f ∈ fs, Reads f.2.1 f.2.2)
    (blanks : List UInt8) (hblanks : ∀ b ∈ blanks, b = 0x0A) :
    parse? (utf8 (braced (fs.map fun f => field f.1 f.2.1)) ++ blanks)
      = some (.object (fs.map fun f => (some f.1, f.2.2))) := by
  have hskip : ∀ b : Builder, Reader.run? ⟨.between, b⟩ blanks = some ⟨.between, b⟩ := by
    intro b
    induction blanks with
    | nil => rfl
    | cons x xs ih =>
        have hx := hblanks x (List.mem_cons_self ..)
        subst hx
        rw [Reader.run?_cons]
        exact ih fun y hy => hblanks y (List.mem_cons_of_mem _ hy)
  rw [parse?, Reader.initial, run?_braced fs h (.value []), hskip]
  rfl

end Reachability.Json
