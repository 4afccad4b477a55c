import Reachability.Json.Reader

set_option autoImplicit false

/-! # No object is the beginning of another one

Once the reader has completed a value that started with a brace, it can take only blanks and texts
that never end: no text that ends in a brace makes it complete again. So a text that is an object is
none any more when something is cut off at its end (`parse?_eq_none_of_prefix`), wherever the cut
is: in a string, in a character, or right before the last brace. -/

namespace Reachability.Json

/-- The byte of the brace that ends an object. -/
def closing : UInt8 := 0x7D

/-! ## A single number or word is not complete inside an object -/

/-- A value is expected only inside something that is open. -/
def Builder.Inside (b : Builder) : Prop := b.stage = .value → b.frames ≠ []

theorem Builder.inside_start? {frames : List Frame} {t : Token} {b : Builder}
    (h : start? frames t = some b) : b.Inside := by
  cases t <;> simp only [start?, Option.some.injEq, reduceCtorEq] at h
  all_goals
    subst h
    intro hv
    cases hv

theorem Builder.inside_push? {b b' : Builder} {t : Token} (hb : b.Inside)
    (h : b.push? t = some b') : b'.Inside := by
  obtain ⟨frames, stage⟩ := b
  unfold push? at h
  split at h
  · exact inside_start? h
  · cases h
    nofun
  · exact inside_start? h
  · cases h
    nofun
  · cases h
    nofun
  · cases h
    nofun
  · cases h
    intro _
    exact List.cons_ne_nil _ _
  · split at h
    · cases h
      intro _
      exact List.cons_ne_nil _ _
    · cases h
      nofun
    · cases h
      nofun
    · cases h
      nofun
    · cases h
  · cases h

theorem Reader.inside_emit? {b b' : Builder} {t : Option Token} (hb : b.Inside)
    (h : emit? b t = some b') : b'.Inside := by
  obtain ⟨t, -, ht⟩ := Option.bind_eq_some_iff.1 h
  exact Builder.inside_push? hb ht

theorem Reader.inside_begin? {b : Builder} {r : Reader} {byte : UInt8} (hb : b.Inside)
    (h : begin? b byte = some r) : r.build.Inside := by
  unfold begin? at h
  dsimp only at h
  split at h
  · cases h
    exact hb
  split at h
  · cases h
    exact hb
  split at h
  · cases h
    exact hb
  split at h
  · cases h
    exact hb
  · obtain ⟨b', hb', rfl⟩ := Option.map_eq_some_iff.1 h
    exact inside_emit? hb hb'

theorem Reader.inside_inText? {b : Builder} {r : Reader} {read : List Piece} {escape : Escape}
    {byte : UInt8} (hb : b.Inside) (h : inText? read escape b byte = some r) : r.build.Inside := by
  unfold inText? at h
  dsimp only at h
  split at h
  · split at h
    · obtain ⟨b', hb', rfl⟩ := Option.map_eq_some_iff.1 h
      exact inside_emit? hb hb'
    split at h
    · cases h
      exact hb
    split at h
    · cases h
    · cases h
      exact hb
  · split at h
    · cases h
      exact hb
    · obtain ⟨e, -, rfl⟩ := Option.map_eq_some_iff.1 h
      exact hb
  · obtain ⟨d, -, rfl⟩ := Option.map_eq_some_iff.1 h
    split <;> exact hb

theorem Reader.inside_step? {r r' : Reader} {byte : UInt8} (hr : r.build.Inside)
    (h : r.step? byte = some r') : r'.build.Inside := by
  unfold step? at h
  dsimp only at h
  split at h
  · exact inside_begin? hr h
  · split at h
    · cases h
      exact hr
    · obtain ⟨b, hb, hbegin⟩ := Option.bind_eq_some_iff.1 h
      exact inside_begin? (inside_emit? hr hb) hbegin
  · split at h
    · cases h
      exact hr
    · obtain ⟨b, hb, hbegin⟩ := Option.bind_eq_some_iff.1 h
      exact inside_begin? (inside_emit? hr hb) hbegin
  · exact inside_inText? hr h

theorem Reader.inside_run? {bs : List UInt8} {r r' : Reader} (hr : r.build.Inside)
    (h : r.run? bs = some r') : r'.build.Inside := by
  induction bs generalizing r with
  | nil =>
      cases h
      exact hr
  | cons b bs ih =>
      rw [run?, List.foldlM_cons] at h
      obtain ⟨r₁, h₁, hrest⟩ := Option.bind_eq_some_iff.1 h
      exact ih (inside_step? hr h₁) hrest

/-- A scalar does not complete the whole text where a value is expected only inside of something. -/
theorem Builder.push?_scalar_ne {b : Builder} (hb : b.Inside) (v w : Json) :
    b.push? (.scalar v) ≠ some ⟨[], .complete w⟩ := by
  obtain ⟨frames, stage⟩ := b
  intro h
  cases stage with
  | value =>
      cases h
      exact hb rfl rfl
  | firstItem => cases h
  | firstKey => cases v <;> cases h
  | key fields => cases v <;> cases h
  | colon fields k => cases h
  | complete u =>
      cases frames with
      | nil => cases h
      | cons f fs => cases f <;> cases h

/-- The value of a builder that has nothing left open. -/
def Builder.result? (b : Builder) : Option Json :=
  match b.frames, b.stage with
  | [], .complete v => some v
  | _, _ => none

theorem Builder.eq_of_result? {b : Builder} {v : Json} (h : b.result? = some v) :
    b = ⟨[], .complete v⟩ := by
  obtain ⟨frames, stage⟩ := b
  unfold result? at h
  split at h
  · next hf hs =>
    cases h
    cases hf
    cases hs
    rfl
  · cases h

theorem Reader.emit?_scalar_result? {b : Builder} {t : Option Token} {v : Json} (hb : b.Inside)
    (ht : ∀ t' ∈ t, ∃ w, t' = .scalar w) : (emit? b t).bind Builder.result? ≠ some v := by
  intro h
  obtain ⟨b', hb', hv⟩ := Option.bind_eq_some_iff.1 h
  obtain ⟨t', ht', hpush⟩ := Option.bind_eq_some_iff.1 hb'
  obtain ⟨w, rfl⟩ := ht t' ht'
  rw [Builder.eq_of_result? hv] at hpush
  exact Builder.push?_scalar_ne hb w v hpush

/-- What a reader inside an object has to look like to have completed it. -/
theorem Reader.eq_of_finish? {r : Reader} {v : Json} (hr : r.build.Inside)
    (h : r.finish? = some v) : r = ⟨.between, ⟨[], .complete v⟩⟩ := by
  obtain ⟨scan, b⟩ := r
  cases scan with
  | between =>
      change b.result? = some v at h
      rw [Builder.eq_of_result? h]
  | word read =>
      change (emit? b (wordToken? read.reverse)).bind Builder.result? = some v at h
      refine absurd h (emit?_scalar_result? hr fun t ht => ?_)
      unfold wordToken? at ht
      repeat' split at ht
      all_goals cases ht
      all_goals exact ⟨_, rfl⟩
  | numeral read =>
      change (emit? b (numeralToken? read.reverse)).bind Builder.result? = some v at h
      refine absurd h (emit?_scalar_result? hr fun t ht => ?_)
      obtain ⟨n, -, rfl⟩ := Option.map_eq_some_iff.1 ht
      exact ⟨_, rfl⟩
  | text read escape => cases h

/-! ## After a complete value -/

/-- The whole text has been completed; the builder takes no more tokens. -/
def Reader.Completed (r : Reader) : Prop := ∃ v, r.build = ⟨[], .complete v⟩

theorem Reader.emit?_of_completed {b : Builder} {v : Json} (hb : b = ⟨[], .complete v⟩)
    (t : Option Token) : emit? b t = none := by
  subst hb
  cases t with
  | none => rfl
  | some t => cases t <;> rfl

theorem Reader.completed_step? {r r' : Reader} {byte : UInt8} (hr : r.Completed)
    (h : r.step? byte = some r') : r'.Completed := by
  obtain ⟨v, hv⟩ := hr
  have hemit := emit?_of_completed hv
  refine ⟨v, ?_⟩
  unfold step? at h
  simp only [begin?, inText?, hemit, Option.map_none, Option.bind_none] at h
  repeat' split at h
  all_goals first
    | (cases h; exact hv)
    | cases h
    | (obtain ⟨_, _, rfl⟩ := Option.map_eq_some_iff.1 h; exact hv)

theorem Reader.completed_run? {bs : List UInt8} {r r' : Reader} (hr : r.Completed)
    (h : r.run? bs = some r') : r'.Completed := by
  induction bs generalizing r with
  | nil =>
      cases h
      exact hr
  | cons b bs ih =>
      rw [run?, List.foldlM_cons] at h
      obtain ⟨r₁, h₁, hrest⟩ := Option.bind_eq_some_iff.1 h
      exact ih (completed_step? hr h₁) hrest

/-- A closing brace after the end can only be part of a text, which is then still open. -/
theorem Reader.finish?_of_closing {r r' : Reader} (hr : r.Completed)
    (h : r.step? closing = some r') : r'.finish? = none := by
  obtain ⟨v, hv⟩ := hr
  have hemit := emit?_of_completed hv
  obtain ⟨scan, b⟩ := r
  cases scan with
  | between =>
      change (emit? b (signToken? (Char.ofUInt8 closing))).map _ = some r' at h
      rw [hemit] at h
      cases h
  | word read =>
      change (emit? b (wordToken? read.reverse)).bind _ = some r' at h
      rw [hemit] at h
      cases h
  | numeral read =>
      change (emit? b (numeralToken? read.reverse)).bind _ = some r' at h
      rw [hemit] at h
      cases h
  | text read escape =>
      cases escape with
      | none =>
          change some (⟨.text (.byte closing :: read) .none, b⟩ : Reader) = some r' at h
          cases h
          rfl
      | begun => cases h
      | hex digits value => cases h

/-! ## The main statement -/

/-- The byte of the brace that starts an object. -/
def opening : UInt8 := 0x7B

/-- A text that starts with a brace is no value as long as it still has to be continued up to a
    closing brace. -/
theorem parse?_eq_none_of_prefix {p q : List UInt8} {v : Json} (hp : p.head? = some opening)
    (hq : q.getLast? = some closing) (h : parse? (p ++ q) = some v) : parse? p = none := by
  obtain ⟨rest, rfl⟩ : ∃ rest, p = opening :: rest := by
    cases p with
    | nil => cases hp
    | cons x rest => exact ⟨rest, congrArg (· :: rest) (Option.some.inj hp)⟩
  obtain ⟨front, rfl⟩ := List.getLast?_eq_some_iff.1 hq
  have hopen : Reader.initial.run? (opening :: rest)
      = Reader.run? ⟨.between, ⟨[], .firstKey⟩⟩ rest := rfl
  cases hw : parse? (opening :: rest) with
  | none => rfl
  | some w =>
      obtain ⟨r, hr, hfinish⟩ := Option.bind_eq_some_iff.1 hw
      have hinside : r.build.Inside := by
        rw [hopen] at hr
        exact Reader.inside_run? (r := ⟨.between, ⟨[], .firstKey⟩⟩) (fun hv => nomatch hv) hr
      -- If the beginning were complete, the last brace would come after the end.
      have hdone : r.Completed := ⟨w, by rw [Reader.eq_of_finish? hinside hfinish]⟩
      obtain ⟨r₁, hr₁, hfinish₁⟩ := Option.bind_eq_some_iff.1 h
      rw [← List.append_assoc, Reader.run?_append, Reader.run?_append, hr, Option.bind_some] at hr₁
      obtain ⟨r₂, hr₂, hlast⟩ := Option.bind_eq_some_iff.1 hr₁
      have hstep : r₂.step? closing = some r₁ := by
        simpa [Reader.run?, List.foldlM_cons] using hlast
      have := Reader.finish?_of_closing (Reader.completed_run? hdone hr₂) hstep
      rw [this] at hfinish₁
      cases hfinish₁

end Reachability.Json
