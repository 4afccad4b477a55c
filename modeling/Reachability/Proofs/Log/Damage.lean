import Mathlib.Data.List.DropRight
import Reachability.Proofs.Log.Replay

set_option autoImplicit false

/-! # Segments of any bytes

What a segment is read as, whatever its bytes are. Blank lines are passed over. A line with
something on it that is no entry is damaged; a segment can be read just if behind a damaged line
there are only blank ones (`Sound`). Then its entries are those of all its lines, and the clean part
of it is made up of the lines up to the last entry (`kept`). Mending leaves just that part, with its
last line ended, and it is read as the same entries. -/

namespace Reachability.Json

/-- A text may be followed by the end of its line. -/
theorem parse?_append_newline {bs : List UInt8} {v : Json} (h : parse? bs = some v) :
    parse? (bs ++ [0x0A]) = some v := by
  obtain ⟨⟨scan, b⟩, hr, hfinish⟩ := Option.bind_eq_some_iff.1 h
  have hrun : Reader.initial.run? (bs ++ [0x0A]) = Reader.step? ⟨scan, b⟩ 0x0A := by
    rw [Reader.run?_append, hr, Option.bind_some]
    simp [Reader.run?]
  rw [parse?, hrun]
  cases scan with
  | between => exact hfinish
  | word read =>
      obtain ⟨b', hb, hfinish⟩ := Option.bind_eq_some_iff.1 hfinish
      change ((Reader.emit? b (wordToken? read.reverse)).bind (Reader.begin? · 0x0A)).bind _ = _
      rw [hb]
      exact hfinish
  | numeral read =>
      obtain ⟨b', hb, hfinish⟩ := Option.bind_eq_some_iff.1 hfinish
      change ((Reader.emit? b (numeralToken? read.reverse)).bind (Reader.begin? · 0x0A)).bind _ = _
      rw [hb]
      exact hfinish
  -- A string that is still open does not finish a text.
  | text read escape => cases hfinish

end Reachability.Json

namespace Reachability.Log

/-- An entry may be followed by the end of its line. -/
theorem Entry.ofBytes?_append_newline {bs : List UInt8} {e : Entry} (h : ofBytes? bs = some e) :
    ofBytes? (bs ++ [Segment.newline]) = some e := by
  obtain ⟨v, hv, he⟩ := Option.bind_eq_some_iff.1 h
  exact Option.bind_eq_some_iff.2 ⟨v, Json.parse?_append_newline hv, he⟩

namespace Segment

/-! ## Lines -/

/-- Lines as a file has them: each ends with its only newline, but for the last one, which may have
    none. -/
inductive Ruled : List (List UInt8) → Prop where
  | nil : Ruled []
  | last {l : List UInt8} (hne : l ≠ []) (h : newline ∉ l) : Ruled [l]
  | cons {l : List UInt8} {ls : List (List UInt8)} (h : newline ∉ l) (hls : Ruled ls) :
      Ruled ((l ++ [newline]) :: ls)

/-- The bytes are none, or the last of them is a newline. -/
def isEnded (bs : List UInt8) : Bool := bs.getLast?.all (· == newline)

@[simp] theorem isEnded_nil : isEnded [] = true := rfl

@[simp] theorem isEnded_append_newline (bs : List UInt8) : isEnded (bs ++ [newline]) = true := by
  simp [isEnded]

theorem isEnded_append {a b : List UInt8} (h : b ≠ []) : isEnded (a ++ b) = isEnded b := by
  rw [isEnded, isEnded, List.getLast?_append, List.getLast?_eq_some_getLast h, Option.some_or]

theorem isEnded_of_ne_nil {bs : List UInt8} (h : bs ≠ []) :
    isEnded bs = (bs.getLast? == some newline) := by
  rw [isEnded, List.getLast?_eq_some_getLast h]
  rfl

theorem isEnded_of_not_mem {l : List UInt8} (hne : l ≠ []) (h : newline ∉ l) :
    isEnded l = false := by
  rw [isEnded, List.getLast?_eq_some_getLast hne, Option.all_some, beq_eq_false_iff_ne]
  exact fun he => h (he ▸ List.getLast_mem hne)

theorem ruled_lines (bs : List UInt8) : Ruled (lines bs) := by
  induction bs with
  | nil => exact .nil
  | cons b bs ih =>
      show Ruled (pushByte b (lines bs))
      by_cases hb : b = newline
      · rw [hb, pushByte_newline]
        exact .cons List.not_mem_nil ih
      · have hpush : ∀ {l : List UInt8}, newline ∉ l → newline ∉ b :: l := fun h =>
          List.not_mem_cons_of_ne_of_not_mem (Ne.symm hb) h
        cases hls : lines bs with
        | nil => exact .last (by simp) (hpush List.not_mem_nil)
        | cons l ls =>
            rw [hls] at ih
            rw [pushByte, if_neg hb]
            cases ih with
            | last hne h => exact .last (by simp) (hpush h)
            | cons h hls => exact .cons (hpush h) hls

/-- Lines that stand in a file one after the other are the lines of that file. -/
theorem Ruled.lines_flatten {ls : List (List UInt8)} (h : Ruled ls) : lines ls.flatten = ls := by
  induction h with
  | nil => rfl
  | last hne h =>
      rw [List.flatten_singleton]
      exact lines_of_not_mem hne h
  | cons h hls ih =>
      rw [List.flatten_cons, List.append_assoc, List.singleton_append, lines_append_newline h, ih]

theorem flatten_lines (bs : List UInt8) : (lines bs).flatten = bs := by
  induction bs with
  | nil => rfl
  | cons b bs ih =>
      show (pushByte b (lines bs)).flatten = b :: bs
      cases hls : lines bs with
      | nil =>
          rw [hls] at ih
          rw [← ih]
          rfl
      | cons l ls =>
          rw [hls] at ih
          rw [pushByte, ← ih]
          split <;> simp

theorem Ruled.ne_nil {ls : List (List UInt8)} (h : Ruled ls) {l : List UInt8} (hl : l ∈ ls) :
    l ≠ [] := by
  induction h with
  | nil => cases hl
  | last hne h =>
      rw [List.mem_singleton.1 hl]
      exact hne
  | cons h hls ih =>
      rcases List.mem_cons.1 hl with rfl | hl
      · simp
      · exact ih hl

/-- What comes before another line is ended. -/
theorem Ruled.of_append {a b : List (List UInt8)} (h : Ruled (a ++ b)) :
    Ruled a ∧ Ruled b ∧ (b ≠ [] → isEnded a.flatten = true) := by
  induction a with
  | nil => exact ⟨.nil, h, fun _ => rfl⟩
  | cons l a ih =>
      rw [List.cons_append] at h
      generalize hls : a ++ b = ls at h
      cases h with
      | last hne h =>
          obtain ⟨rfl, rfl⟩ := List.append_eq_nil_iff.1 hls
          exact ⟨.last hne h, .nil, fun hb => absurd rfl hb⟩
      | @cons l _ h hls' =>
          obtain ⟨ha, hb, hend⟩ := ih (hls ▸ hls')
          refine ⟨.cons h ha, hb, fun hne => ?_⟩
          rw [List.flatten_cons]
          cases hflat : a.flatten with
          | nil => rw [List.append_nil, isEnded_append_newline]
          | cons c cs =>
              rw [isEnded_append (by simp), ← hflat]
              exact hend hne

/-- Lines go on behind lines that are ended. -/
theorem Ruled.append {a b : List (List UInt8)} (ha : Ruled a) (hb : Ruled b)
    (hend : isEnded a.flatten = true) : Ruled (a ++ b) := by
  induction ha with
  | nil => exact hb
  | last hne h =>
      rw [List.flatten_singleton, isEnded_of_not_mem hne h] at hend
      cases hend
  | @cons l ls h hls ih =>
      refine .cons h (ih ?_)
      cases hflat : ls.flatten with
      | nil => rfl
      | cons c cs =>
          rw [List.flatten_cons, hflat, isEnded_append (by simp)] at hend
          exact hend

/-- Lines are not ended just if the last of them lacks its newline. -/
theorem Ruled.isEnded_concat {a : List (List UInt8)} {l : List UInt8} (h : Ruled (a ++ [l])) :
    isEnded (a ++ [l]).flatten = false ↔ newline ∉ l := by
  have hne : l ≠ [] := h.ne_nil (List.mem_append_right _ (List.mem_singleton_self l))
  obtain ⟨-, hl, -⟩ := h.of_append
  rw [List.flatten_append, List.flatten_singleton, isEnded_append hne]
  generalize hone : [l] = one at hl
  cases hl with
  | nil => cases hone
  | last hne h =>
      cases hone
      exact iff_of_true (isEnded_of_not_mem hne h) h
  | cons h hls =>
      cases hone
      simp

/-- What is added to a file that is ended makes lines of its own. -/
theorem lines_append {a : List UInt8} (h : isEnded a = true) (b : List UInt8) :
    lines (a ++ b) = lines a ++ lines b := by
  have hruled : Ruled (lines a ++ lines b) :=
    (ruled_lines a).append (ruled_lines b) (by rwa [flatten_lines])
  have := hruled.lines_flatten
  rwa [List.flatten_append, flatten_lines, flatten_lines] at this

/-! ## Damaged lines -/

/-- There is something on a line, and it is no entry. -/
def IsDamaged (line : List UInt8) : Prop := isBlank line = false ∧ Entry.ofBytes? line = none

instance (line : List UInt8) : Decidable (IsDamaged line) := instDecidableAnd

/-- Behind a damaged line there are only blank ones. -/
def Sound (ls : List (List UInt8)) : Prop :=
  ls.Pairwise fun a b => IsDamaged a → isBlank b = true

instance (ls : List (List UInt8)) : Decidable (Sound ls) :=
  inferInstanceAs (Decidable (List.Pairwise _ ls))

/-- The last line with something on it is no entry. -/
def IsTorn (ls : List (List UInt8)) : Prop :=
  ∃ line, (ls.filter fun l => !isBlank l).getLast? = some line ∧ Entry.ofBytes? line = none

/-- Behind `n` lines stands the first damaged one, and something stands behind that. -/
def SpoiledAt (ls : List (List UInt8)) (n : Nat) : Prop :=
  ∃ before line after, ls = before ++ line :: after ∧ before.length = n ∧
    (∀ l ∈ before, ¬ IsDamaged l) ∧ IsDamaged line ∧ ∃ l ∈ after, isBlank l = false

/-- Blanks leave the reader where it was, waiting for a value. -/
theorem eq_initial_of_isBlank {bs : List UInt8} (h : isBlank bs = true) :
    ∀ r ∈ Json.Reader.initial.run? bs, r = Json.Reader.initial := by
  induction bs with
  | nil =>
      intro r hr
      exact (Option.some.inj hr).symm
  | cons b bs ih =>
      intro r hr
      rw [isBlank, List.all_cons, Bool.and_eq_true] at h
      rw [Json.Reader.run?, List.foldlM_cons] at hr
      obtain ⟨r₁, hr₁, hrest⟩ := Option.bind_eq_some_iff.1 hr
      have hstep : r₁ = Json.Reader.initial := by
        simp only [isBlankByte, Bool.or_eq_true, beq_iff_eq] at h
        rcases h.1 with (((rfl | rfl) | rfl) | rfl) | rfl <;> cases hr₁ <;> rfl
      rw [hstep] at hrest
      exact ih h.2 r hrest

theorem ofBytes?_of_isBlank {line : List UInt8} (h : isBlank line = true) :
    Entry.ofBytes? line = none := by
  rw [Entry.ofBytes?, Json.parse?]
  cases hr : Json.Reader.initial.run? line with
  | none => rfl
  | some r =>
      rw [eq_initial_of_isBlank h r hr]
      rfl

theorem isBlank_of_ofBytes? {line : List UInt8} {e : Entry} (h : Entry.ofBytes? line = some e) :
    isBlank line = false := by
  cases hb : isBlank line with
  | false => rfl
  | true =>
      rw [ofBytes?_of_isBlank hb] at h
      cases h

theorem filterMap_of_isBlank {ls : List (List UInt8)} (h : ∀ l ∈ ls, isBlank l = true) :
    ls.filterMap Entry.ofBytes? = [] :=
  List.filterMap_eq_nil_iff.2 fun l hl => ofBytes?_of_isBlank (h l hl)

/-! ## The clean part -/

/-- The lines up to the last one that is an entry. -/
def kept (ls : List (List UInt8)) : List (List UInt8) :=
  ls.rdropWhile fun l => (Entry.ofBytes? l).isNone

theorem kept_eq_nil_iff {ls : List (List UInt8)} :
    kept ls = [] ↔ ls.filterMap Entry.ofBytes? = [] := by
  simp [kept, List.rdropWhile_eq_nil_iff, List.filterMap_eq_nil_iff]

theorem kept_cons (l : List UInt8) (ls : List (List UInt8)) :
    kept (l :: ls) = if kept ls = [] ∧ Entry.ofBytes? l = none then [] else l :: kept ls := by
  simp only [kept, List.rdropWhile, List.reverse_cons, List.dropWhile_append]
  by_cases hd : ls.reverse.dropWhile (fun l => (Entry.ofBytes? l).isNone) = []
  · cases hl : Entry.ofBytes? l <;> simp [hd, hl]
  · simp [hd]

/-- Behind the clean part no line is an entry, and its own last line is one. -/
theorem exists_kept (ls : List (List UInt8)) :
    ∃ rest, ls = kept ls ++ rest ∧ (∀ l ∈ rest, Entry.ofBytes? l = none) ∧
      ∀ l ∈ (kept ls).getLast?, ∃ e, Entry.ofBytes? l = some e := by
  induction ls with
  | nil => exact ⟨[], rfl, nofun, nofun⟩
  | cons l ls ih =>
      obtain ⟨rest, hls, hrest, hlast⟩ := ih
      rw [kept_cons]
      split
      · next h =>
        rw [h.1, List.nil_append] at hls
        refine ⟨l :: ls, rfl, fun m hm => ?_, nofun⟩
        rcases List.mem_cons.1 hm with rfl | hm
        · exact h.2
        · exact hrest m (hls ▸ hm)
      · next h =>
        refine ⟨rest, ?_, hrest, fun m hm => ?_⟩
        · rw [List.cons_append, ← hls]
        · rw [List.getLast?_cons] at hm
          cases hk : (kept ls).getLast? with
          | none =>
              rw [hk] at hm
              have hnil : kept ls = [] := List.getLast?_eq_none_iff.1 hk
              rw [← Option.some.inj hm]
              exact Option.ne_none_iff_exists'.1 fun hl => h ⟨hnil, hl⟩
          | some k =>
              rw [hk] at hm
              exact hlast m (by rw [hk]; exact hm)

/-- No entry is missing in the clean part. -/
theorem filterMap_kept (ls : List (List UInt8)) :
    (kept ls).filterMap Entry.ofBytes? = ls.filterMap Entry.ofBytes? := by
  obtain ⟨rest, hls, hrest, -⟩ := exists_kept ls
  conv_rhs => rw [hls, List.filterMap_append, List.filterMap_eq_nil_iff.2 hrest, List.append_nil]

theorem flatten_kept_ne_nil {ls : List (List UInt8)} (h : kept ls ≠ []) :
    (kept ls).flatten ≠ [] := by
  obtain ⟨-, -, -, hlast⟩ := exists_kept ls
  obtain ⟨e, he⟩ := hlast _ (List.getLast?_eq_some_getLast h)
  intro hnil
  have hempty := List.flatten_eq_nil_iff.1 hnil _ (List.getLast_mem h)
  rw [hempty] at he
  cases he

theorem not_isTorn_of_undamaged {ls : List (List UInt8)} (h : ∀ l ∈ ls, ¬ IsDamaged l) :
    ¬ IsTorn ls := by
  rintro ⟨line, hlast, hnone⟩
  obtain ⟨hmem, hblank⟩ := List.mem_filter.1 (List.mem_of_getLast? hlast)
  exact h line hmem ⟨by simpa using hblank, hnone⟩

/-- Something stands behind the lines before the last entry of sound lines, so they are not
    damaged. -/
theorem undamaged_kept {ls : List (List UInt8)} (h : Sound ls) : ∀ l ∈ kept ls, ¬ IsDamaged l := by
  obtain ⟨rest, hls, -, hlast⟩ := exists_kept ls
  rcases List.eq_nil_or_concat (kept ls) with hnil | ⟨before, line, hconcat⟩
  · rw [hnil]
    exact nofun
  rw [List.concat_eq_append] at hconcat
  obtain ⟨e, he⟩ := hlast line (by rw [hconcat, List.getLast?_concat]; rfl)
  intro l hl hd
  rw [hconcat] at hl
  rcases List.mem_append.1 hl with hl | hl
  · rw [hls, hconcat] at h
    have hpair := (List.pairwise_append.1 (List.pairwise_append.1 h).1).2.2
    have hblank := hpair l hl line (List.mem_singleton_self _) hd
    rw [isBlank_of_ofBytes? he] at hblank
    cases hblank
  · rw [List.mem_singleton.1 hl] at hd
    rw [hd.2] at he
    cases he

/-! ## Reading sound lines -/

theorem isTorn_cons_of_isBlank {l : List UInt8} {ls : List (List UInt8)} (h : isBlank l = true) :
    IsTorn (l :: ls) ↔ IsTorn ls := by
  simp [IsTorn, h]

theorem isTorn_cons_of_entry {l : List UInt8} {ls : List (List UInt8)} {e : Entry}
    (h : Entry.ofBytes? l = some e) : IsTorn (l :: ls) ↔ IsTorn ls := by
  have hl : isBlank l = false := isBlank_of_ofBytes? h
  rw [IsTorn, IsTorn, List.filter_cons_of_pos (by simp [hl]), List.getLast?_cons]
  cases (ls.filter fun l => !isBlank l).getLast? <;> simp [h]

theorem isTorn_of_isBlank {l : List UInt8} {ls : List (List UInt8)} (hl : IsDamaged l)
    (h : ∀ m ∈ ls, isBlank m = true) : IsTorn (l :: ls) := by
  have hfilter : (ls.filter fun l => !isBlank l) = [] := by simpa using h
  refine ⟨l, ?_, hl.2⟩
  rw [List.filter_cons_of_pos (by simp [hl.1]), hfilter]
  rfl

/-- Sound lines are read as their entries. The length that is clean is that of the lines up to the
    last entry, and it is told whether these are ended. -/
theorem readLines_of_sound {ls : List (List UInt8)} (h : Sound ls) (number offset : Nat) :
    ∃ torn, readLines number offset ls
        = .ok ⟨ls.filterMap Entry.ofBytes?, torn,
          if kept ls = [] then 0 else offset + (kept ls).flatten.length,
          isEnded (kept ls).flatten⟩ ∧
      (torn = true ↔ IsTorn ls) := by
  induction ls generalizing number offset with
  | nil =>
      refine ⟨false, rfl, ?_⟩
      simp [IsTorn]
  | cons l ls ih =>
      obtain ⟨hl, h⟩ := List.pairwise_cons.1 h
      obtain ⟨torn, hread, htorn⟩ := ih h (number + 1) (offset + l.length)
      rw [readLines, kept_cons]
      by_cases hblank : isBlank l = true
      · have hnone := ofBytes?_of_isBlank hblank
        refine ⟨torn, ?_, htorn.trans (isTorn_cons_of_isBlank hblank).symm⟩
        simp only [hblank, if_true, hread, List.filterMap_cons, hnone, and_true]
        by_cases hk : kept ls = []
        · simp [hk]
        · simp [hk, isEnded_append (flatten_kept_ne_nil hk), Nat.add_assoc]
      have hblank : isBlank l = false := by simpa using hblank
      cases he : Entry.ofBytes? l with
      | some e =>
          refine ⟨torn, ?_, htorn.trans (isTorn_cons_of_entry he).symm⟩
          have hne : l ≠ [] := by
            rintro rfl
            cases hblank
          simp only [hblank, Bool.false_eq_true, if_false, he, hread, Except.map, Content.cons,
            List.filterMap_cons, ← kept_eq_nil_iff]
          by_cases hk : kept ls = []
          · simp [hk, kept_eq_nil_iff.1 hk, isEnded_of_ne_nil hne]
          · simp [hk, isEnded_append (flatten_kept_ne_nil hk), Nat.add_assoc]
      | none =>
          have hrest : ∀ m ∈ ls, isBlank m = true := fun m hm => hl m hm ⟨hblank, he⟩
          refine ⟨true, ?_, fun _ => isTorn_of_isBlank ⟨hblank, he⟩ hrest, fun _ => rfl⟩
          have hall : ls.all isBlank = true := List.all_eq_true.2 hrest
          have hk : kept ls = [] := kept_eq_nil_iff.2 (filterMap_of_isBlank hrest)
          simp [hblank, he, hall, hk, kept_eq_nil_iff.1 hk]

/-- The first damaged line that something stands behind is an error, told by its number. -/
theorem readLines_of_spoiledAt {ls : List (List UInt8)} {n : Nat} (h : SpoiledAt ls n)
    (number offset : Nat) : readLines number offset ls = .error (number + n + 1) := by
  obtain ⟨before, line, after, rfl, rfl, hbefore, hline, m, hm, hblank⟩ := h
  induction before generalizing number offset with
  | nil =>
      have hall : after.all isBlank = false := List.all_eq_false.2 ⟨m, hm, by simp [hblank]⟩
      simp [readLines, hline.1, hline.2, hall]
  | cons l before ih =>
      have ih := ih (number + 1) (offset + l.length) fun k hk =>
        hbefore k (List.mem_cons_of_mem _ hk)
      rw [List.cons_append, readLines, ih, List.length_cons]
      by_cases hl : isBlank l = true
      · simp [hl]
        omega
      · cases he : Entry.ofBytes? l with
        | some e =>
            simp [hl, Except.map]
            omega
        | none =>
            have hl : isBlank l = false := by simpa using hl
            exact absurd ⟨hl, he⟩ (hbefore l (List.mem_cons_self ..))

theorem sound_of_isBlank {ls : List (List UInt8)} (h : ∀ l ∈ ls, isBlank l = true) : Sound ls :=
  List.pairwise_of_forall_mem_list fun _ _ b hb _ => h b hb

theorem sound_or_spoiledAt (ls : List (List UInt8)) : Sound ls ∨ ∃ n, SpoiledAt ls n := by
  induction ls with
  | nil => exact .inl .nil
  | cons l ls ih =>
      by_cases hl : IsDamaged l
      · by_cases hrest : ∀ m ∈ ls, isBlank m = true
        · exact .inl (List.pairwise_cons.2 ⟨fun m hm _ => hrest m hm, sound_of_isBlank hrest⟩)
        · push Not at hrest
          obtain ⟨m, hm, hblank⟩ := hrest
          exact .inr ⟨0, [], l, ls, rfl, rfl, nofun, hl, m, hm, by simpa using hblank⟩
      · rcases ih with h | ⟨n, before, line, after, rfl, rfl, hbefore, hline⟩
        · exact .inl (List.pairwise_cons.2 ⟨fun _ _ hd => absurd hd hl, h⟩)
        · refine .inr ⟨_, l :: before, line, after, rfl, rfl, fun m hm => ?_, hline⟩
          rcases List.mem_cons.1 hm with rfl | hm
          · exact hl
          · exact hbefore m hm

/-- Lines are not sound if something stands behind a damaged one. -/
theorem IsDamaged.not_sound {before after : List (List UInt8)} {line l : List UInt8}
    (h : IsDamaged line) (hl : l ∈ after) (hblank : isBlank l = false) :
    ¬ Sound (before ++ line :: after) := by
  intro hsound
  have hafter := (List.pairwise_cons.1 (List.pairwise_append.1 hsound).2.1).1 l hl h
  rw [hblank] at hafter
  cases hafter

theorem SpoiledAt.not_sound {ls : List (List UInt8)} {n : Nat} (h : SpoiledAt ls n) :
    ¬ Sound ls := by
  obtain ⟨before, line, after, rfl, -, -, hline, m, hm, hblank⟩ := h
  exact hline.not_sound hm hblank

section Parse

variable {bs : List UInt8}

/-- The entries on the lines of a file. -/
def entriesOf (bs : List UInt8) : List Entry := (lines bs).filterMap Entry.ofBytes?

/-- A sound segment is read as the entries on its lines, and it is told how much of it is clean. -/
theorem parse_of_sound (h : Sound (lines bs)) :
    ∃ c, parse bs = .ok c ∧ c.entries = entriesOf bs ∧ (c.torn = true ↔ IsTorn (lines bs)) ∧
      c.cleanLength = (kept (lines bs)).flatten.length ∧
      c.endsWithNewline = isEnded (kept (lines bs)).flatten := by
  obtain ⟨torn, hread, htorn⟩ := readLines_of_sound h 0 0
  refine ⟨_, hread, rfl, htorn, ?_, rfl⟩
  dsimp only
  split
  · next hk => rw [hk]; rfl
  · rw [Nat.zero_add]

theorem parse_of_spoiledAt {n : Nat} (h : SpoiledAt (lines bs) n) : parse bs = .error (n + 1) := by
  rw [parse, readLines_of_spoiledAt h, Nat.zero_add]

/-! ## Mending -/

/-- The clean part of a segment, with its last line ended. -/
def tidy (bs : List UInt8) : List UInt8 :=
  (kept (lines bs)).flatten ++ if isEnded (kept (lines bs)).flatten then [] else [newline]

theorem isEnded_tidy (bs : List UInt8) : isEnded (tidy bs) = true := by
  unfold tidy
  split
  · next h => rwa [List.append_nil]
  · exact isEnded_append_newline _

theorem ruled_kept (bs : List UInt8) : Ruled (kept (lines bs)) := by
  obtain ⟨rest, hls, -, -⟩ := exists_kept (lines bs)
  have hruled := ruled_lines bs
  rw [hls] at hruled
  exact hruled.of_append.1

/-- The clean part stands at the beginning. -/
theorem take_flatten_kept (bs : List UInt8) :
    bs.take (kept (lines bs)).flatten.length = (kept (lines bs)).flatten := by
  obtain ⟨rest, hls, -, -⟩ := exists_kept (lines bs)
  have hbs : bs = (kept (lines bs)).flatten ++ rest.flatten := by
    rw [← List.flatten_append, ← hls, flatten_lines]
  exact (congrArg (List.take _) hbs).trans List.take_left

/-- Mending leaves the clean part. -/
theorem mended_eq_tidy (h : Sound (lines bs)) {c : Content} (hc : parse bs = .ok c) :
    c.mended bs = tidy bs := by
  obtain ⟨c', hparse, -, -, hlength, hended⟩ := parse_of_sound h
  obtain rfl : c' = c := Except.ok.inj (hparse.symm.trans hc)
  rw [Content.mended, tidy, hlength, hended, take_flatten_kept]
  by_cases hk : kept (lines bs) = []
  · simp [hk]
  · have hpos := List.length_pos_of_ne_nil (flatten_kept_ne_nil hk)
    cases isEnded (kept (lines bs)).flatten with
    | true => rw [if_neg (by simp), if_pos rfl]
    | false => rw [if_pos ⟨hpos, rfl⟩, if_neg Bool.false_ne_true]

/-- What does not need mending is clean already. -/
theorem tidy_eq_of_not_needsMending (h : Sound (lines bs)) {c : Content} (hc : parse bs = .ok c)
    (hneeds : needsMending c bs.length = false) : tidy bs = bs := by
  rw [← mended_eq_tidy h hc]
  simp only [needsMending, Bool.or_eq_false_iff, decide_eq_false_iff_not, Bool.not_eq_eq_eq_not,
    Bool.not_false] at hneeds
  rw [Content.mended, hneeds.2, List.take_of_length_le (by omega)]
  simp

/-- A segment that needs no mending: there are no damaged lines, and the last line is an entry and
    is ended. -/
structure Clean (bs : List UInt8) : Prop where
  undamaged : ∀ l ∈ lines bs, ¬ IsDamaged l
  kept : kept (lines bs) = lines bs
  ended : isEnded bs = true

theorem sound_of_undamaged {ls : List (List UInt8)} (h : ∀ l ∈ ls, ¬ IsDamaged l) : Sound ls :=
  List.pairwise_of_forall_mem_list fun a ha _ _ hd => absurd hd (h a ha)

/-- Without damaged lines, and with an entry on the last line, a segment is clean to its end. -/
theorem parse_of_undamaged (h : ∀ l ∈ lines bs, ¬ IsDamaged l) (hk : kept (lines bs) = lines bs) :
    parse bs = .ok ⟨entriesOf bs, false, bs.length, isEnded bs⟩ := by
  obtain ⟨⟨entries, torn, length, ended⟩, hparse, rfl, htorn, rfl, rfl⟩ :=
    parse_of_sound (sound_of_undamaged h)
  have htorn : torn = false :=
    Bool.eq_false_iff.2 fun ht => not_isTorn_of_undamaged h (htorn.1 ht)
  rw [hparse, htorn, hk, flatten_lines]

theorem Clean.sound (h : Clean bs) : Sound (lines bs) := sound_of_undamaged h.undamaged

theorem Clean.parse (h : Clean bs) : parse bs = .ok ⟨entriesOf bs, false, bs.length, true⟩ := by
  rw [parse_of_undamaged h.undamaged h.kept, h.ended]

/-- Lines that end with an entry are clean. -/
theorem clean_of_concat {before : List (List UInt8)} {line : List UInt8} {e : Entry}
    (hlines : lines bs = before ++ [line]) (hbefore : ∀ l ∈ before, ¬ IsDamaged l)
    (hline : Entry.ofBytes? line = some e) (hend : isEnded bs = true) : Clean bs where
  undamaged l hl := by
    rw [hlines] at hl
    rcases List.mem_append.1 hl with hl | hl
    · exact hbefore l hl
    · rw [List.mem_singleton.1 hl]
      exact fun hd => by rw [hd.2] at hline; cases hline
  kept := by
    rw [hlines, Segment.kept, List.rdropWhile_concat_neg]
    simp [hline]
  ended := hend

/-- The lines up to the last entry are sound, and no entry is missing on them. -/
theorem sound_flatten_kept (h : Sound (lines bs)) :
    Sound (lines (kept (lines bs)).flatten) ∧
      entriesOf (kept (lines bs)).flatten = entriesOf bs := by
  obtain ⟨rest, hls, -, -⟩ := exists_kept (lines bs)
  rw [hls] at h
  rw [entriesOf, (ruled_kept bs).lines_flatten]
  exact ⟨(List.pairwise_append.1 h).1, filterMap_kept _⟩

/-- The clean part of a sound segment is clean, and no entry is missing in it. -/
theorem clean_tidy (h : Sound (lines bs)) :
    Clean (tidy bs) ∧ entriesOf (tidy bs) = entriesOf bs := by
  obtain ⟨-, -, -, hlast⟩ := exists_kept (lines bs)
  have hentries : (kept (lines bs)).filterMap Entry.ofBytes? = entriesOf bs := filterMap_kept _
  have hkept := ruled_kept bs
  rcases List.eq_nil_or_concat (kept (lines bs)) with hnil | ⟨before, line, hconcat⟩
  · have htidy : tidy bs = [] := by simp [tidy, hnil]
    rw [htidy, ← hentries, hnil]
    exact ⟨⟨nofun, rfl, rfl⟩, rfl⟩
  rw [List.concat_eq_append] at hconcat
  obtain ⟨e, he⟩ := hlast line (by rw [hconcat, List.getLast?_concat]; rfl)
  have hbefore : ∀ l ∈ before, ¬ IsDamaged l := fun l hl =>
    undamaged_kept h l (by rw [hconcat]; exact List.mem_append_left _ hl)
  by_cases hended : isEnded (kept (lines bs)).flatten = true
  · have htidy : tidy bs = (kept (lines bs)).flatten := by rw [tidy, if_pos hended, List.append_nil]
    have hlines : lines (tidy bs) = kept (lines bs) := by rw [htidy, hkept.lines_flatten]
    refine ⟨clean_of_concat (hlines.trans hconcat) hbefore he (isEnded_tidy bs), ?_⟩
    rw [entriesOf, hlines, hentries]
  -- Only the last line of all can lack its newline, and it gets one.
  · have htidy : tidy bs = (before ++ [line ++ [newline]]).flatten := by
      rw [tidy, if_neg hended, hconcat]
      simp
    rw [hconcat] at hkept hended
    obtain ⟨hb, -, hbend⟩ := hkept.of_append
    have hline : newline ∉ line := hkept.isEnded_concat.1 (by simpa using hended)
    have hlines : lines (tidy bs) = before ++ [line ++ [newline]] := by
      rw [htidy]
      exact (hb.append (.cons hline .nil) (hbend (by simp))).lines_flatten
    have hline' := Entry.ofBytes?_append_newline he
    refine ⟨clean_of_concat hlines hbefore hline' (isEnded_tidy bs), ?_⟩
    rw [entriesOf, hlines, ← hentries, hconcat, List.filterMap_append, List.filterMap_append]
    simp [he, hline']

/-- A clean segment stays clean when an entry is added. -/
theorem Clean.append_line (h : Clean bs) {e : Entry} (he : e.Valid) :
    Clean (bs ++ line e) ∧ entriesOf (bs ++ line e) = entriesOf bs ++ [e] := by
  have hline : lines (line e) = [line e] := lines_append_newline (newline_not_mem_bytes e) []
  have hlines : lines (bs ++ line e) = lines bs ++ [line e] := by
    rw [lines_append h.ended, hline]
  refine ⟨clean_of_concat hlines h.undamaged (ofBytes?_line he) ?_, ?_⟩
  · rw [line, ← List.append_assoc]
    exact isEnded_append_newline _
  · rw [entriesOf, hlines, List.filterMap_append, entriesOf]
    simp [ofBytes?_line he]

end Parse

end Segment

end Reachability.Log
