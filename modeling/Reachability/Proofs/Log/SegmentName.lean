import Mathlib.Data.List.Sort
import Reachability.Log.SegmentName
import Reachability.Proofs.Disk.Path
import Reachability.Proofs.Text.Numeral
import Reachability.Proofs.Time.CivilDate

set_option autoImplicit false

/-! # Segment names are read back

The name that a family gives to a segment is read back as its date and number (`key?_name`), and the
name of the active file is not the name of a segment. Names in a directory are put into one order,
whatever order they are listed in (`ofNames_eq`). -/

namespace Reachability.Log

open Text (cutLead? cutEnding?_append cutLead?_append cutLead?_eq_some_iff)

namespace SegmentFamily

/-! ## Parts of a name -/

/-- What comes after the number. -/
def ending (f : SegmentFamily) : List Char :=
  match f.ext with
  | some ext => '.' :: ext
  | none => []

/-- What comes between the date and the ending. -/
def numberText (number : Nat) : List Char := if number = 0 then [] else '.' :: Text.decimal number

theorem name_eq (f : SegmentFamily) (date : List Char) (number : Nat) :
    f.name date number = f.stem ++ '-' :: (date ++ numberText number ++ f.ending) := by
  obtain ⟨stem, ext⟩ := f
  cases ext <;> simp [name, numberText, ending]

theorem takeBytes?_append {front : List Char} (h : ∀ c ∈ front, c.utf8Size = 1)
    (rest : List Char) : takeBytes? front.length (front ++ rest) = some (front, rest) := by
  induction front with
  | nil => cases rest <;> simp [takeBytes?]
  | cons c front ih =>
      have hc := h c (List.mem_cons_self ..)
      rw [List.cons_append, List.length_cons, takeBytes?, if_neg (Nat.succ_ne_zero _),
        if_pos (by omega), hc, Nat.add_sub_cancel, ih fun d hd => h d (List.mem_cons_of_mem _ hd)]
      rfl

theorem number?_numberText {n : Nat} (h : n < Text.halfWordBound) :
    number? (numberText n) = some n := by
  unfold numberText
  split
  · next h0 => rw [h0, number?]
  · rw [number?, Text.unsigned?_decimal h]

/-! ## Reading a name -/

/-- A date and a number are read back from the name that they make. -/
theorem key?_name (f : SegmentFamily) {date : CivilDate} (hd : date.Plain) {n : Nat}
    (hn : n < Text.halfWordBound) : f.key? (f.name date.text n) = some (date, n) := by
  -- All characters of the date are single bytes, so cutting it off by bytes cuts it off whole.
  have hsize : ∀ c ∈ date.text, c.utf8Size = 1 := by
    intro c hc
    rcases CivilDate.mem_text hd hc with hc | rfl
    · have := Text.toNat_of_isDigit hc
      have hle : c.val ≤ 0x7f := by
        rw [UInt32.le_iff_toNat_le]
        have hv : c.val.toNat = c.toNat := rfl
        have : (0x7f : UInt32).toNat = 127 := rfl
        omega
      simp [Char.utf8Size, hle]
    · rfl
  have htake : takeBytes? dateBytes (date.text ++ numberText n) = some (date.text, numberText n) := by
    have := takeBytes?_append hsize (numberText n)
    rwa [CivilDate.length_text hd] at this
  have hlead : cutLead? ['-'] ('-' :: (date.text ++ numberText n ++ f.ending))
      = some (date.text ++ numberText n ++ f.ending) := cutLead?_append ['-'] _
  obtain ⟨stem, ext⟩ := f
  cases ext with
  | none =>
      rw [ending, List.append_nil] at hlead
      simp only [key?, name_eq, cutLead?_append, ending, List.append_nil, hlead,
        Option.bind_eq_bind, Option.bind_some, htake, CivilDate.parse?_text hd.valid,
        number?_numberText hn]
  | some ext =>
      have hsplit : date.text ++ numberText n ++ '.' :: ext
          = (date.text ++ numberText n ++ ['.']) ++ ext := by simp
      rw [ending, hsplit] at hlead
      simp only [key?, name_eq, cutLead?_append, ending, hsplit, hlead, Option.bind_eq_bind,
        Option.bind_some, cutEnding?_append, htake, CivilDate.parse?_text hd.valid,
        number?_numberText hn]

/-- The name without date and number is not the name of a segment. -/
theorem key?_active (f : SegmentFamily) : f.key? (f.stem ++ f.ending) = none := by
  have hlead : cutLead? ['-'] f.ending = none := by
    unfold ending
    cases f.ext <;> rfl
  simp only [key?, cutLead?_append, hlead, Option.bind_eq_bind, Option.bind_some, Option.bind_none]

/-- The name of a segment has a dash before the date. -/
theorem dash_of_key? {f : SegmentFamily} {name : List Char} (h : (f.key? name).isSome = true) :
    '-' ∈ name := by
  cases hstem : cutLead? f.stem name with
  | none =>
      simp only [key?, hstem, Option.bind_eq_bind, Option.bind_none] at h
      cases h
  | some rest =>
      cases hdash : cutLead? ['-'] rest with
      | none =>
          simp only [key?, hstem, hdash, Option.bind_eq_bind, Option.bind_some,
            Option.bind_none] at h
          cases h
      | some rest' =>
          rw [cutLead?_eq_some_iff.1 hstem, cutLead?_eq_some_iff.1 hdash]
          exact List.mem_append_right _ (List.mem_cons_self ..)

/-! ## The family of a path -/

/-- A name is its stem and its ending. -/
theorem splitName_append {name : List Char} :
    (Disk.Path.splitName name).1 ++ ending ⟨(Disk.Path.splitName name).1,
      (Disk.Path.splitName name).2⟩ = name := by
  have hback := List.takeWhile_append_dropWhile (p := (· ≠ '.')) (l := name.reverse)
  have hdrop : name.reverse.drop (name.reverse.takeWhile (· ≠ '.')).length
      = name.reverse.dropWhile (· ≠ '.') := by
    have hleft : (name.reverse.takeWhile (· ≠ '.') ++ name.reverse.dropWhile (· ≠ '.')).drop
        (name.reverse.takeWhile (· ≠ '.')).length = name.reverse.dropWhile (· ≠ '.') :=
      List.drop_left
    rwa [hback] at hleft
  unfold Disk.Path.splitName
  simp only [hdrop]
  split
  · next point c stem hpoint =>
    have hdot : point = '.' := by
      have := List.head?_dropWhile_not (p := (· ≠ '.')) (l := name.reverse)
      rw [hpoint] at this
      simpa using this
    rw [hpoint, hdot] at hback
    generalize name.reverse.takeWhile (· ≠ '.') = ext at hback ⊢
    have hname := congrArg List.reverse hback
    rw [List.reverse_reverse] at hname
    rw [← hname, ending]
    simp
  · simp [ending]

theorem ofPath_append {path name : List Char} (h : Disk.Path.name? path = some name) :
    (ofPath path).stem ++ (ofPath path).ending = name := by
  unfold ofPath
  rw [h]
  exact splitName_append

theorem mem_stem_ending {f : SegmentFamily} {date : CivilDate} (hd : date.Plain) {n : Nat}
    {c : Char} (hc : c ∈ f.name date.text n) :
    c ∈ f.stem ++ f.ending ∨ c.isDigit = true ∨ c = '-' ∨ c = '.' := by
  rw [name_eq] at hc
  simp only [List.mem_append, List.mem_cons] at hc ⊢
  rcases hc with hc | rfl | (hc | hc) | hc
  · exact .inl (.inl hc)
  · exact .inr (.inr (.inl rfl))
  · rcases CivilDate.mem_text hd hc with hc | hc
    · exact .inr (.inl hc)
    · exact .inr (.inr (.inl hc))
  · unfold numberText at hc
    split at hc
    · cases hc
    · rcases List.mem_cons.1 hc with hc | hc
      · exact .inr (.inr (.inr hc))
      · exact .inr (.inl (Text.isDigit_of_mem_decimal hc))
  · exact .inl (.inr hc)

/-- The segments of a file have names that files can have. -/
theorem isName_name {f : SegmentFamily} {base : String} (hbase : Disk.Path.IsName base)
    (hf : f.stem ++ f.ending = base.toList) {date : CivilDate} (hd : date.Plain) (n : Nat) :
    Disk.Path.IsName (String.ofList (f.name date.text n)) := by
  have hdash : '-' ∈ f.name date.text n := by
    rw [name_eq]
    exact List.mem_append_right _ (List.mem_cons_self ..)
  have hdots : ∀ x : List Char, '-' ∉ x → f.name date.text n ≠ x := fun x hx he =>
    hx (he ▸ hdash)
  refine ⟨?_, fun he => hdots ['.'] (by decide) ?_, fun he => hdots ['.', '.'] (by decide) ?_, ?_⟩
  · rw [String.toList_ofList]
    exact hdots [] List.not_mem_nil
  · have := congrArg String.toList he
    rwa [String.toList_ofList] at this
  · have := congrArg String.toList he
    rwa [String.toList_ofList] at this
  · rw [String.toList_ofList]
    intro hslash
    rcases mem_stem_ending hd hslash with h | h | h | h
    · exact hbase.slash (hf ▸ h)
    · exact absurd h (by decide)
    · exact absurd h (by decide)
    · exact absurd h (by decide)

/-- The segment of a date and a number. -/
def segment (f : SegmentFamily) (date : CivilDate) (n : Nat) : SegmentFile :=
  ⟨date, n, String.ofList (f.name date.text n)⟩

end SegmentFamily

namespace SegmentFile

/-! ## The order of reading -/

theorem le_iff {a b : SegmentFile} : a.le b = true ↔
    a.date.before b.date = true ∨ (a.date = b.date ∧
      (a.number < b.number ∨ (a.number = b.number ∧ a.name ≤ b.name))) := by
  simp only [le, Bool.or_eq_true, Bool.and_eq_true, beq_iff_eq, decide_eq_true_eq]

theorem le_trans {a b c : SegmentFile} (hab : a.le b = true) (hbc : b.le c = true) :
    a.le c = true := by
  rw [le_iff] at hab hbc ⊢
  rcases hab with hab | ⟨hab, hn⟩
  · rcases hbc with hbc | ⟨hbc, -⟩
    · exact .inl (CivilDate.before_trans hab hbc)
    · exact .inl (hbc ▸ hab)
  · rcases hbc with hbc | ⟨hbc, hn'⟩
    · exact .inl (hab ▸ hbc)
    · refine .inr ⟨hab.trans hbc, ?_⟩
      rcases hn with hn | ⟨hn, hname⟩
      · rcases hn' with hn' | ⟨hn', -⟩
        · exact .inl (Nat.lt_trans hn hn')
        · exact .inl (hn' ▸ hn)
      · rcases hn' with hn' | ⟨hn', hname'⟩
        · exact .inl (hn ▸ hn')
        · exact .inr ⟨hn.trans hn', Std.le_trans hname hname'⟩

theorem le_total (a b : SegmentFile) : (a.le b || b.le a) = true := by
  rw [Bool.or_eq_true, le_iff, le_iff]
  rcases CivilDate.before_or_eq_or_before a.date b.date with h | h | h
  · exact .inl (.inl h)
  · rcases Nat.lt_trichotomy a.number b.number with hn | hn | hn
    · exact .inl (.inr ⟨h, .inl hn⟩)
    · rcases Std.le_total (a := a.name) (b := b.name) with hname | hname
      · exact .inl (.inr ⟨h, .inr ⟨hn, hname⟩⟩)
      · exact .inr (.inr ⟨h.symm, .inr ⟨hn.symm, hname⟩⟩)
    · exact .inr (.inr ⟨h.symm, .inl hn⟩)
  · exact .inr (.inl h)

theorem le_antisymm {a b : SegmentFile} (hab : a.le b = true) (hba : b.le a = true) : a = b := by
  rw [le_iff] at hab hba
  rcases hab with hab | ⟨hdate, hn⟩
  · rcases hba with hba | ⟨hdate, -⟩
    · rw [CivilDate.before_asymm hab] at hba
      cases hba
    · rw [hdate, CivilDate.before_irrefl] at hab
      cases hab
  · rcases hba with hba | ⟨-, hn'⟩
    · rw [hdate, CivilDate.before_irrefl] at hba
      cases hba
    · obtain ⟨hnumber, hname⟩ : a.number = b.number ∧ a.name = b.name := by
        rcases hn with hn | ⟨hn, hname⟩
        · omega
        · rcases hn' with hn' | ⟨-, hname'⟩
          · omega
          · exact ⟨hn, Std.le_antisymm hname hname'⟩
      cases a
      cases b
      simp_all

theorem pairwise_mergeSort :
    ∀ l : List SegmentFile, (l.mergeSort le).Pairwise fun a b => a.le b = true :=
  List.pairwise_mergeSort (fun _ _ _ => le_trans) le_total

/-- The same segments are put into the same order, however they are listed. -/
theorem mergeSort_eq_of_perm {a b : List SegmentFile} (h : a.Perm b) :
    a.mergeSort le = b.mergeSort le :=
  List.Perm.eq_of_pairwise (fun _ _ _ _ => le_antisymm) (pairwise_mergeSort a)
    (pairwise_mergeSort b)
    ((List.mergeSort_perm a le).trans (h.trans (List.mergeSort_perm b le).symm))

/-- Each segment may as well be put in its place among the others: that can be computed. -/
theorem mergeSort_eq_insertionSort (l : List SegmentFile) :
    l.mergeSort le = l.insertionSort fun a b => a.le b = true := by
  have : Std.Total fun a b : SegmentFile => a.le b = true :=
    ⟨fun a b => (Bool.or_eq_true _ _).mp (le_total a b)⟩
  have : IsTrans SegmentFile fun a b => a.le b = true := ⟨fun _ _ _ => le_trans⟩
  exact List.Perm.eq_of_pairwise (fun _ _ _ _ => le_antisymm) (pairwise_mergeSort l)
    (List.pairwise_insertionSort _ l)
    ((List.mergeSort_perm l le).trans (List.perm_insertionSort _ l).symm)

/-- The segments of a family are told by the names that give their keys. -/
theorem mem_ofNames {f : SegmentFamily} {names : List String} {s : SegmentFile} :
    s ∈ ofNames f names ↔ s.name ∈ names ∧ f.key? s.name.toList = some (s.date, s.number) := by
  simp only [ofNames, List.mem_mergeSort, List.mem_filterMap, Option.map_eq_some_iff]
  constructor
  · rintro ⟨x, hx, key, hkey, rfl⟩
    exact ⟨hx, hkey⟩
  · rintro ⟨hname, hkey⟩
    exact ⟨s.name, hname, _, hkey, rfl⟩

/-- Only the names of segments count, and it does not matter in which order they are listed. -/
theorem ofNames_eq {f : SegmentFamily} {names : List String} {segments : List SegmentFile}
    {others : List String} (h : names.Perm (others ++ segments.map name))
    (hothers : ∀ x ∈ others, f.key? x.toList = none)
    (hkeys : ∀ s ∈ segments, f.key? s.name.toList = some (s.date, s.number)) :
    ofNames f names = segments.mergeSort le := by
  let read (x : String) : Option SegmentFile :=
    (f.key? x.toList).map fun key => ⟨key.1, key.2, x⟩
  have hnone : others.filterMap read = [] := by
    refine List.filterMap_eq_nil_iff.2 fun x hx => ?_
    show (f.key? x.toList).map _ = none
    rw [hothers x hx]
    rfl
  have hsome : (segments.map name).filterMap read = segments := by
    clear h
    induction segments with
    | nil => rfl
    | cons s ss ih =>
        have hs : read s.name = some s := by
          show (f.key? s.name.toList).map _ = some s
          rw [hkeys s (List.mem_cons_self ..)]
          rfl
        rw [List.map_cons, List.filterMap_cons, hs, ih fun t ht => hkeys t (List.mem_cons_of_mem _ ht)]
  have hread : (others ++ segments.map name).filterMap read = segments := by
    rw [List.filterMap_append, hnone, hsome, List.nil_append]
  exact mergeSort_eq_of_perm ((h.filterMap read).trans (List.Perm.of_eq hread))

end SegmentFile

end Reachability.Log
