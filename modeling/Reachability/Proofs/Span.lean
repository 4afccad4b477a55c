import Reachability.Proofs.Text.Blank
import Reachability.Proofs.Text.Numeral
import Reachability.Span

set_option autoImplicit false

/-! # Spans are read from text

A text names a span if there is a number in it, right behind that the ending of a measure, and
blanks around them at most (`Names`). The reader knows just these texts, and it finds the length
that the number and the measure make (`parse_names`). -/

namespace Reachability.Span

open Text (cutEnding? cutEnding?_eq_none cutEnding?_eq_some_iff)

/-- What a number in a text counts. -/
inductive Measure where
  | unmarked
  | seconds
  | milliseconds
  | minutes
  deriving DecidableEq

namespace Measure

/-- What stands behind the number. -/
def ending : Measure → List Char
  | unmarked => []
  | seconds => ['s']
  | milliseconds => ['m', 's']
  | minutes => ['m']

/-- The length of one, in nanoseconds. Without a mark seconds are counted. -/
def nanos : Measure → Nat
  | unmarked => 1000000000
  | seconds => 1000000000
  | milliseconds => 1000000
  | minutes => 60 * 1000000000

/-- The characters of an ending are neither digits nor blanks. -/
theorem of_mem_ending (u : Measure) :
    ∀ c ∈ u.ending, c.isDigit = false ∧ Text.isBlank c = false := by
  cases u <;> simp only [ending, List.forall_mem_cons, List.not_mem_nil, false_implies,
    implies_true] <;> decide

theorem ending_injective {u v : Measure} : u.ending = v.ending → u = v := by
  cases u <;> cases v <;> decide

end Measure

/-- Characters that are a number of 64 bits: a plus sign or none, and then one or more digits. -/
def IsNumber (cs : List Char) (n : Nat) : Prop :=
  ∃ sign digits, cs = sign ++ digits ∧ (sign = [] ∨ sign = ['+']) ∧ digits ≠ [] ∧
    (∀ c ∈ digits, c.isDigit = true) ∧ n = Nat.ofDigitChars 10 digits 0 ∧ n < Text.wordBound

/-- A text that holds a number and the ending of a measure, and blanks before and behind them. -/
def Names (s : String) (n : Nat) (u : Measure) : Prop :=
  ∃ front number back, s.toList = front ++ (number ++ u.ending) ++ back ∧ IsNumber number n ∧
    (∀ c ∈ front, Text.isBlank c = true) ∧ ∀ c ∈ back, Text.isBlank c = true

/-! ## Numbers and endings -/

section IsNumber

variable {cs : List Char} {n : Nat}

theorem unsigned?_eq_some_iff_isNumber :
    Text.unsigned? Text.wordBound cs = some n ↔ IsNumber cs n := by
  simp only [Text.unsigned?_eq_some_iff, Text.natural?_eq_some_iff, IsNumber, and_assoc]

/-- The last character of a number is a digit. -/
theorem IsNumber.getLast? (h : IsNumber cs n) : ∃ c, cs.getLast? = some c ∧ c.isDigit = true := by
  obtain ⟨sign, digits, rfl, -, hne, hdigits, -⟩ := h
  refine ⟨digits.getLast hne, ?_, hdigits _ (List.getLast_mem hne)⟩
  rw [List.getLast?_append, List.getLast?_eq_some_getLast hne, Option.some_or]

theorem IsNumber.ne_concat (h : IsNumber cs n) (front : List Char) {c : Char}
    (hc : c.isDigit = false) : cs ≠ front ++ [c] := by
  rintro rfl
  obtain ⟨d, hd, hdigit⟩ := h.getLast?
  rw [List.getLast?_concat] at hd
  rw [← Option.some.inj hd, hc] at hdigit
  cases hdigit

/-- The first character of a number is a digit or a plus sign, so it is no blank. -/
theorem IsNumber.isBlank_head? (h : IsNumber cs n) : ∀ c ∈ cs.head?, Text.isBlank c = false := by
  obtain ⟨sign, digits, rfl, hsign, -, hdigits, -⟩ := h
  intro c hc
  rcases hsign with rfl | rfl
  · exact Text.isBlank_of_isDigit (hdigits c (List.mem_of_head? hc))
  · cases hc
    rfl

end IsNumber

/-! ## Reading -/

/-- A number with the ending of a measure is read, whichever endings are tried before. -/
theorem ofChars?_append {number : List Char} {n : Nat} (h : IsNumber number n) (u : Measure) :
    ofChars? (number ++ u.ending) = some (ofNanos (n * u.nanos)) := by
  have hread := unsigned?_eq_some_iff_isNumber.2 h
  -- An ending that is longer than the one that is there would have to begin within the number.
  have hlonger : ∀ (front : List Char) (c : Char), c.isDigit = false → number ≠ front ++ [c] :=
    fun front _ hc => h.ne_concat front hc
  cases u with
  | unmarked =>
      rw [Measure.ending, List.append_nil]
      have hms : cutEnding? ['m', 's'] number = none := cutEnding?_eq_none fun front he =>
        hlonger (front ++ ['m']) 's' rfl (by simpa using he)
      have hs : cutEnding? ['s'] number = none := cutEnding?_eq_none fun front he =>
        hlonger front 's' rfl he
      have hm : cutEnding? ['m'] number = none := cutEnding?_eq_none fun front he =>
        hlonger front 'm' rfl he
      simp only [ofChars?, hms, hs, hm, hread]
      rfl
  | seconds =>
      have hms : cutEnding? ['m', 's'] (number ++ ['s']) = none := cutEnding?_eq_none fun front he =>
        have he' : number ++ ['s'] = (front ++ ['m']) ++ ['s'] := by simpa using he
        hlonger front 'm' rfl (List.append_cancel_right he')
      have hs : cutEnding? ['s'] (number ++ ['s']) = some number := cutEnding?_eq_some_iff.2 rfl
      simp only [ofChars?, Measure.ending, hms, hs, hread]
      rfl
  | milliseconds =>
      have hms : cutEnding? ['m', 's'] (number ++ ['m', 's']) = some number :=
        cutEnding?_eq_some_iff.2 rfl
      simp only [ofChars?, Measure.ending, hms, hread]
      rfl
  | minutes =>
      have hlast : ∀ front : List Char, number ++ ['m'] ≠ front ++ ['s'] := fun front he =>
        absurd (List.append_inj_right' he rfl) (by decide)
      have hms : cutEnding? ['m', 's'] (number ++ ['m']) = none := cutEnding?_eq_none fun front he =>
        hlast (front ++ ['m']) (by simpa using he)
      have hs : cutEnding? ['s'] (number ++ ['m']) = none := cutEnding?_eq_none hlast
      have hm : cutEnding? ['m'] (number ++ ['m']) = some number := cutEnding?_eq_some_iff.2 rfl
      simp only [ofChars?, Measure.ending, hms, hs, hm, hread, Option.map_some, Measure.nanos,
        ofSeconds, Nat.mul_assoc]

/-- Whatever is read is a number with the ending of a measure. -/
theorem exists_of_ofChars? {cs : List Char} {span : Span} (h : ofChars? cs = some span) :
    ∃ number n, ∃ u : Measure, cs = number ++ u.ending ∧ IsNumber number n := by
  have hcount : ∀ {cs : List Char} {f : Nat → Span},
      (Text.unsigned? Text.wordBound cs).map f = some span → ∃ n, IsNumber cs n := by
    intro cs f h
    obtain ⟨n, hn, -⟩ := Option.map_eq_some_iff.1 h
    exact ⟨n, unsigned?_eq_some_iff_isNumber.1 hn⟩
  simp only [ofChars?] at h
  split at h
  · next number hms =>
    obtain ⟨n, hn⟩ := hcount h
    exact ⟨number, n, .milliseconds, cutEnding?_eq_some_iff.1 hms, hn⟩
  split at h
  · next number hs =>
    obtain ⟨n, hn⟩ := hcount h
    exact ⟨number, n, .seconds, cutEnding?_eq_some_iff.1 hs, hn⟩
  split at h
  · next number hm =>
    obtain ⟨n, hn⟩ := hcount h
    exact ⟨number, n, .minutes, cutEnding?_eq_some_iff.1 hm, hn⟩
  · obtain ⟨n, hn⟩ := hcount h
    exact ⟨cs, n, .unmarked, (List.append_nil cs).symm, hn⟩

theorem IsNumber.getLast?_append_ending {number : List Char} {n : Nat} (h : IsNumber number n)
    (u : Measure) : ∀ c ∈ (number ++ u.ending).getLast?, Text.isBlank c = false := by
  intro c hc
  obtain ⟨d, hd, hdigit⟩ := h.getLast?
  rw [List.getLast?_append, hd] at hc
  cases hlast : u.ending.getLast? with
  | none =>
      rw [hlast] at hc
      rw [← Option.some.inj hc]
      exact Text.isBlank_of_isDigit hdigit
  | some e =>
      rw [hlast] at hc
      rw [← Option.some.inj hc]
      exact (u.of_mem_ending e (List.mem_of_getLast? hlast)).2

section Names

variable {s : String} {n : Nat} {u : Measure}

theorem Names.lt (h : Names s n u) : n < Text.wordBound := by
  obtain ⟨_, _, _, -, ⟨_, _, -, -, -, -, -, hlt⟩, -⟩ := h
  exact hlt

/-- The number and the ending are what is left of a text without the blanks. -/
theorem names_iff_trimChars : Names s n u ↔
    ∃ number, Text.trimChars s.toList = number ++ u.ending ∧ IsNumber number n := by
  constructor
  · rintro ⟨front, number, back, hs, hnumber, hfront, hback⟩
    have hne : number ≠ [] := by
      rintro rfl
      obtain ⟨c, hc, -⟩ := hnumber.getLast?
      cases hc
    refine ⟨number, ?_, hnumber⟩
    rw [hs]
    refine Text.trimChars_append hfront hback (List.append_ne_nil_of_left_ne_nil hne _)
      (fun c hc => ?_) (hnumber.getLast?_append_ending u)
    rw [List.head?_append, List.head?_eq_some_head hne, Option.some_or,
      ← List.head?_eq_some_head hne] at hc
    exact hnumber.isBlank_head? c hc
  · rintro ⟨number, htrim, hnumber⟩
    obtain ⟨front, back, hs, hfront, hback⟩ := Text.exists_trimChars s.toList
    rw [htrim] at hs
    exact ⟨front, number, back, hs, hnumber, hfront, hback⟩

/-- A text names one number of one measure only. -/
theorem Names.unique {m : Nat} {v : Measure} (h : Names s n u) (h' : Names s m v) :
    n = m ∧ u = v := by
  obtain ⟨a, ha, hna⟩ := names_iff_trimChars.1 h
  obtain ⟨b, hb, hnb⟩ := names_iff_trimChars.1 h'
  -- A number ends with a digit, so what follows its digits cannot be a part of the other ending.
  have hrest : ∀ {number : List Char} {k : Nat} {w : Measure} {before rest after : List Char},
      IsNumber number k → number = before ++ rest → w.ending = rest ++ after → rest = [] := by
    intro number k w before rest after hnumber hsplit hending
    rcases List.eq_nil_or_concat rest with hnil | ⟨front, c, hconcat⟩
    · exact hnil
    rw [List.concat_eq_append] at hconcat
    subst hconcat
    have hc : c ∈ w.ending := by simp [hending]
    rw [← List.append_assoc] at hsplit
    exact absurd hsplit (hnumber.ne_concat _ (w.of_mem_ending c hc).1)
  have hab : a = b ∧ u.ending = v.ending := by
    rcases List.append_eq_append_iff.1 (ha.symm.trans hb) with
      ⟨rest, hsplit, hending⟩ | ⟨rest, hsplit, hending⟩
    · obtain rfl := hrest hnb hsplit hending
      exact ⟨by simpa using hsplit.symm, hending⟩
    · obtain rfl := hrest hna hsplit hending
      exact ⟨by simpa using hsplit, hending.symm⟩
  obtain ⟨rfl, hending⟩ := hab
  have hread := unsigned?_eq_some_iff_isNumber.2 hna
  rw [unsigned?_eq_some_iff_isNumber.2 hnb] at hread
  exact ⟨(Option.some.inj hread).symm, Measure.ending_injective hending⟩

theorem parse_of_names (h : Names s n u) : parse s = .ok (ofNanos (n * u.nanos)) := by
  obtain ⟨number, htrim, hnumber⟩ := names_iff_trimChars.1 h
  simp only [parse, Text.trim, String.toList_ofList, htrim, ofChars?_append hnumber u]

/-- A text that names nothing is an error, and that tells the text without the blanks. -/
theorem parse_of_not_names (h : ¬ ∃ n u, Names s n u) : parse s = .error ⟨Text.trim s⟩ := by
  have hnone : ofChars? (Text.trimChars s.toList) = none := by
    refine Option.eq_none_iff_forall_ne_some.2 fun span hspan => h ?_
    obtain ⟨number, n, u, htrim, hnumber⟩ := exists_of_ofChars? hspan
    exact ⟨n, u, names_iff_trimChars.2 ⟨number, htrim, hnumber⟩⟩
  simp only [parse, Text.trim, String.toList_ofList, hnone]

/-- No length that a text can name is longer than the longest span. -/
theorem Names.nanos_ofNanos (h : Names s n u) (hfits : u = .minutes → n * 60 < Text.wordBound) :
    (ofNanos (n * u.nanos)).nanos = n * u.nanos := by
  have hlt := h.lt
  rw [Span.nanos_ofNanos]
  refine Nat.min_eq_left ?_
  simp only [Text.wordBound] at hlt hfits
  cases u <;> simp only [Measure.nanos, limit, forall_const] at hfits ⊢ <;> omega

end Names

/-- A text is read as a span just if it is a number of 64 bits with the ending of a measure behind
    it, between blanks; any other text is an error. The span is as long as the number and the
    measure say, so two texts are read as the same span just if these lengths are equal: `120`,
    `120s`, `120000ms` and `2m` all are. Left out are numbers of minutes that have more than 64 bits
    in seconds. -/
theorem parse_names (s : String) (h : ∀ n, Names s n .minutes → n * 60 < Text.wordBound) :
    ((∃ span, parse s = .ok span) ↔ ∃ n u, Names s n u) ∧
      (∀ n u, Names s n u → ∃ span, parse s = .ok span ∧ span.nanos = n * u.nanos) ∧
      ((¬ ∃ n u, Names s n u) → parse s = .error ⟨Text.trim s⟩) ∧
      ∀ t n m u v, Names s n u → Names t m v → (v = .minutes → m * 60 < Text.wordBound) →
        (parse s = parse t ↔ n * u.nanos = m * v.nanos) := by
  have hfits : ∀ {n : Nat} {u : Measure}, Names s n u → u = .minutes → n * 60 < Text.wordBound :=
    fun hn hu => h _ (hu ▸ hn)
  refine ⟨⟨fun ⟨span, hspan⟩ => ?_, fun ⟨n, u, hn⟩ => ⟨_, parse_of_names hn⟩⟩,
    fun n u hn => ⟨_, parse_of_names hn, hn.nanos_ofNanos (hfits hn)⟩, parse_of_not_names,
    fun t n m u v hs ht hv => ?_⟩
  · refine Classical.byContradiction fun hnone => ?_
    rw [parse_of_not_names hnone] at hspan
    cases hspan
  · rw [parse_of_names hs, parse_of_names ht, Except.ok.injEq]
    refine ⟨fun he => ?_, fun he => congrArg ofNanos he⟩
    rw [← hs.nanos_ofNanos (hfits hs), ← ht.nanos_ofNanos hv, he]

/-- Two minutes with a plus sign and zeros, between a no-break space and a line break, are as long
    as that many milliseconds. -/
theorem parse_names_two_minutes :
    (∀ n, Names "\u00a0+002m\n" n .minutes → n * 60 < Text.wordBound) ∧
      (∃ span, parse "\u00a0+002m\n" = .ok span ∧ span.nanos = 120000000000) ∧
      parse "\u00a0+002m\n" = parse "120000ms" := by
  have hs : Names "\u00a0+002m\n" 2 .minutes :=
    ⟨['\u00a0'], ['+', '0', '0', '2'], ['\n'], by decide +kernel,
      ⟨['+'], ['0', '0', '2'], rfl, .inr rfl, by decide, List.all_eq_true.1 rfl, rfl, by decide⟩,
      List.all_eq_true.1 rfl, List.all_eq_true.1 rfl⟩
  have ht : Names "120000ms" 120000 .milliseconds :=
    ⟨[], ['1', '2', '0', '0', '0', '0'], [], by decide +kernel,
      ⟨[], ['1', '2', '0', '0', '0', '0'], rfl, .inl rfl, by decide, List.all_eq_true.1 rfl, rfl,
        by decide⟩,
      nofun, nofun⟩
  have hfits : ∀ n, Names "\u00a0+002m\n" n .minutes → n * 60 < Text.wordBound := by
    intro n hn
    rw [(hn.unique hs).1]
    decide
  obtain ⟨-, hread, -, hsame⟩ := parse_names _ hfits
  exact ⟨hfits, hread 2 .minutes hs, (hsame _ _ _ _ _ hs ht nofun).2 rfl⟩

end Reachability.Span
