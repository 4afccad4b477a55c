import Reachability.Proofs.Log.Damage
import Reachability.Proofs.Log.Ledger

set_option autoImplicit false

/-! # What is read of a segment

A segment of any bytes is either refused, because something stands behind a damaged line, or it is
read line by line (`parse_any_bytes`). Then its clean part ends with the line of the last entry, and
by itself it is read as the same entries (`parse_take_cleanLength`). -/

namespace Reachability.Log.Segment

/-- Lines are cut behind the last one that is an entry; if there is none, nothing is in front. -/
structure CutAfterEntries (ls front rest : List (List UInt8)) : Prop where
  split : ls = front ++ rest
  entry : ∀ l ∈ front.getLast?, ∃ e, Entry.ofBytes? l = some e
  noEntry : ∀ l ∈ rest, Entry.ofBytes? l = none

/-- What is read of a segment: the entries on its lines, whether the last line with something on it
    is damaged, the bytes up to the end of the last entry's line, and whether that line is ended. -/
structure Tells (bs : List UInt8) (c : Content) : Prop where
  entries : c.entries = ((lines bs).filter fun l => !isBlank l).filterMap Entry.ofBytes?
  torn : c.torn = true ↔ IsTorn (lines bs)
  clean : ∃ front rest, CutAfterEntries (lines bs) front rest ∧
    c.cleanLength = front.flatten.length ∧
    (c.endsWithNewline = false ↔ rest = [] ∧ ∃ l ∈ front.getLast?, newline ∉ l)

theorem filterMap_filter_isBlank (ls : List (List UInt8)) :
    (ls.filter fun l => !isBlank l).filterMap Entry.ofBytes? = ls.filterMap Entry.ofBytes? := by
  rw [List.filterMap_filter]
  refine List.filterMap_congr fun l _ => ?_
  cases hl : isBlank l with
  | false => rfl
  | true => exact (ofBytes?_of_isBlank hl).symm

/-- Only at the end of a file a line can lack its newline. -/
theorem Ruled.isEnded_eq_false_iff {front rest : List (List UInt8)} (h : Ruled (front ++ rest)) :
    isEnded front.flatten = false ↔ rest = [] ∧ ∃ l ∈ front.getLast?, newline ∉ l := by
  obtain ⟨hfront, -, hend⟩ := h.of_append
  constructor
  · intro hopen
    refine ⟨by_contra fun hne => ?_, ?_⟩
    · rw [hend hne] at hopen
      cases hopen
    rcases List.eq_nil_or_concat front with rfl | ⟨before, l, hconcat⟩
    · cases hopen
    · rw [List.concat_eq_append] at hconcat
      subst hconcat
      exact ⟨l, List.getLast?_concat, hfront.isEnded_concat.1 hopen⟩
  · rintro ⟨-, l, hl, hnew⟩
    obtain ⟨before, rfl⟩ := List.getLast?_eq_some_iff.1 hl
    exact hfront.isEnded_concat.2 hnew

section Parse

variable {bs : List UInt8} {c : Content}

theorem sound_of_parse (h : parse bs = .ok c) : Sound (lines bs) := by
  rcases sound_or_spoiledAt (lines bs) with hs | ⟨n, hn⟩
  · exact hs
  · rw [parse_of_spoiledAt hn] at h
    cases h

theorem tells_of_parse (h : parse bs = .ok c) : Tells bs c := by
  obtain ⟨c', hparse, hentries, htorn, hlength, hended⟩ := parse_of_sound (sound_of_parse h)
  obtain rfl := Except.ok.inj (hparse.symm.trans h)
  obtain ⟨rest, hls, hrest, hlast⟩ := exists_kept (lines bs)
  have hruled : Ruled (kept (lines bs) ++ rest) := hls ▸ ruled_lines bs
  refine ⟨?_, htorn, kept (lines bs), rest, ⟨hls, hlast, hrest⟩, hlength, ?_⟩
  · rw [hentries, filterMap_filter_isBlank]
    rfl
  · rw [hended]
    exact hruled.isEnded_eq_false_iff

/-- The clean part is read as the whole segment is, but for its torn end. -/
theorem parse_take_cleanLength (h : parse bs = .ok c) :
    parse (bs.take c.cleanLength) = .ok { c with torn := false } := by
  have hs := sound_of_parse h
  obtain ⟨⟨entries, torn, length, ended⟩, hparse, rfl, -, rfl, rfl⟩ := parse_of_sound hs
  obtain rfl := Except.ok.inj (hparse.symm.trans h)
  -- The lines of the clean part are those up to the last entry.
  have hlines : lines (kept (lines bs)).flatten = kept (lines bs) := (ruled_kept bs).lines_flatten
  have hundamaged : ∀ l ∈ lines (kept (lines bs)).flatten, ¬ IsDamaged l := by
    rw [hlines]
    exact undamaged_kept hs
  have hkept : kept (lines (kept (lines bs)).flatten) = lines (kept (lines bs)).flatten := by
    rw [hlines]
    exact List.rdropWhile_idempotent ..
  rw [take_flatten_kept, parse_of_undamaged hundamaged hkept, (sound_flatten_kept hs).2]

theorem parse_eq_error_iff {n : Nat} :
    parse bs = .error n ↔ ∃ i, n = i + 1 ∧ SpoiledAt (lines bs) i := by
  constructor
  · intro h
    rcases sound_or_spoiledAt (lines bs) with hs | ⟨i, hi⟩
    · obtain ⟨c, hparse, -⟩ := parse_of_sound hs
      rw [hparse] at h
      cases h
    · rw [parse_of_spoiledAt hi] at h
      exact ⟨i, (Except.error.inj h).symm, hi⟩
  · rintro ⟨i, rfl, hi⟩
    exact parse_of_spoiledAt hi

end Parse

/-- If something stands behind a damaged line, then behind the first damaged line, too. -/
theorem exists_spoiledAt_iff {ls : List (List UInt8)} :
    (∃ i, SpoiledAt ls i) ↔ ∃ before line after, ls = before ++ line :: after ∧ IsDamaged line ∧
      ∃ l ∈ after, isBlank l = false := by
  constructor
  · rintro ⟨_, before, line, after, hls, -, -, hline, hafter⟩
    exact ⟨before, line, after, hls, hline, hafter⟩
  · rintro ⟨before, line, after, rfl, hline, l, hl, hblank⟩
    exact (sound_or_spoiledAt _).resolve_left (hline.not_sound hl hblank)

/-- Any bytes are split into lines that end with their only newline, but for the last one, which may
    have none. They are refused just if something stands behind a damaged line, and then the number
    of the first damaged line is told, counted from 1. Otherwise they are read (`Tells`), and their
    clean part by itself is read as the same, without a torn end. -/
theorem parse_any_bytes (bs : List UInt8) :
    (Ruled (lines bs) ∧ (lines bs).flatten = bs) ∧
      ((∃ n, parse bs = .error n) ↔ ∃ before line after, lines bs = before ++ line :: after ∧
        IsDamaged line ∧ ∃ l ∈ after, isBlank l = false) ∧
      (∀ n, parse bs = .error n ↔ ∃ i, n = i + 1 ∧ SpoiledAt (lines bs) i) ∧
      ∀ c, parse bs = .ok c → Tells bs c ∧
        parse (bs.take c.cleanLength) = .ok { c with torn := false } := by
  refine ⟨⟨ruled_lines bs, flatten_lines bs⟩, ?_, fun _ => parse_eq_error_iff,
    fun c hc => ⟨tells_of_parse hc, parse_take_cleanLength hc⟩⟩
  rw [← exists_spoiledAt_iff]
  constructor
  · rintro ⟨n, hn⟩
    obtain ⟨i, -, hi⟩ := parse_eq_error_iff.1 hn
    exact ⟨i, hi⟩
  · rintro ⟨i, hi⟩
    exact ⟨i + 1, parse_of_spoiledAt hi⟩

/-- A part of a line behind an entry, with blank lines around the entry, is torn, and the clean part
    ends with the entry. -/
theorem parse_any_bytes_torn :
    let bs := [0x20, newline] ++ line (sampleEntry 1) ++ [newline, 0x78]
    ∃ c, parse bs = .ok c ∧ c.torn = true ∧
      parse (bs.take c.cleanLength) = .ok { c with torn := false } := by
  intro bs
  have hs : Sound (lines bs) := by decide +kernel
  obtain ⟨c, hparse, -⟩ := parse_of_sound hs
  obtain ⟨-, -, -, hread⟩ := parse_any_bytes bs
  obtain ⟨htells, hclean⟩ := hread c hparse
  exact ⟨c, hparse, htells.torn.2 ⟨[0x78], by decide +kernel, by decide +kernel⟩, hclean⟩

end Reachability.Log.Segment
