import Reachability.Log.Segment
import Reachability.Proofs.Log.Entry

set_option autoImplicit false

/-! # Segments are read back

What a segment is read as when it holds the lines of some entries and then nothing, or a part of one
more line: an entry counts as soon as its last brace is there, and a shorter part is torn. -/

namespace Reachability.Log.Segment

/-! ## Lines -/

theorem pushByte_newline (ls : List (List UInt8)) : pushByte newline ls = [newline] :: ls := by
  cases ls with
  | nil => rfl
  | cons l ls => simp [pushByte]

/-- Up to its first newline a file is one line. -/
theorem lines_append_newline {l : List UInt8} (h : newline ∉ l) (rest : List UInt8) :
    lines (l ++ newline :: rest) = (l ++ [newline]) :: lines rest := by
  induction l with
  | nil => exact pushByte_newline (lines rest)
  | cons b l ih =>
      have hb : b ≠ newline := fun he => h (he ▸ List.mem_cons_self ..)
      have ih := ih fun hl => h (List.mem_cons_of_mem _ hl)
      show pushByte b (lines (l ++ newline :: rest)) = _
      rw [ih]
      simp [pushByte, hb]

/-- Bytes without a newline are one line, if there are any. -/
theorem lines_of_not_mem {l : List UInt8} (hne : l ≠ []) (h : newline ∉ l) : lines l = [l] := by
  induction l with
  | nil => exact absurd rfl hne
  | cons b l ih =>
      have hb : b ≠ newline := fun he => h (he ▸ List.mem_cons_self ..)
      show pushByte b (lines l) = _
      cases l with
      | nil => rfl
      | cons c l =>
          rw [ih (List.cons_ne_nil c l) fun hl => h (List.mem_cons_of_mem _ hl)]
          simp [pushByte, hb]

theorem newline_not_mem_bytes (e : Entry) : newline ∉ e.bytes := e.newline_not_mem_bytes

/-- The bytes of the lines of entries. -/
def bytesOf (es : List Entry) : List UInt8 := es.flatMap line

@[simp] theorem bytesOf_nil : bytesOf [] = [] := rfl

@[simp] theorem bytesOf_append (es fs : List Entry) : bytesOf (es ++ fs) = bytesOf es ++ bytesOf fs :=
  List.flatMap_append

@[simp] theorem bytesOf_singleton (e : Entry) : bytesOf [e] = line e := by
  simp [bytesOf]

theorem lines_bytesOf_append (es : List Entry) (rest : List UInt8) :
    lines (bytesOf es ++ rest) = es.map line ++ lines rest := by
  induction es with
  | nil => rfl
  | cons e es ih =>
      rw [bytesOf, List.flatMap_cons, line, List.append_assoc, List.append_assoc,
        List.singleton_append, lines_append_newline (newline_not_mem_bytes e)]
      exact congrArg (line e :: ·) ih

/-! ## Reading lines -/

/-- The content with entries before all others, whose last line ends at byte `stop`. -/
def Content.after (es : List Entry) (stop : Nat) (c : Content) : Content :=
  if es = [] then c
  else if c.entries = [] then ⟨es, c.torn, stop, true⟩
  else { c with entries := es ++ c.entries }

theorem Content.cons_after (e : Entry) (es : List Entry) (stop stop' : Nat) (c : Content)
    (h : es = [] → stop = stop') :
    Content.cons e stop true (.after es stop' c) = .after (e :: es) stop' c := by
  unfold after cons
  by_cases hes : es = []
  · by_cases hc : c.entries = [] <;> simp [hes, hc, h hes]
  · by_cases hc : c.entries = [] <;> simp [hes, hc]

theorem isBlank_of_head {bs : List UInt8} (h : bs.head? = some Json.opening) :
    isBlank bs = false := by
  cases bs with
  | nil => cases h
  | cons b bs =>
      cases h
      rfl

theorem head?_bytes (e : Entry) : e.bytes.head? = some Json.opening := by
  obtain ⟨middle, hm⟩ := e.bytes_eq
  rw [hm]
  rfl

theorem isBlank_line (e : Entry) : isBlank (line e) = false := by
  refine isBlank_of_head ?_
  rw [line, List.head?_append, head?_bytes]
  rfl

theorem ofBytes?_line {e : Entry} (h : e.Valid) : Entry.ofBytes? (line e) = some e :=
  Entry.ofBytes?_append h _ fun b hb => by simpa [newline] using hb

theorem readLines_append {es : List Entry} (h : ∀ e ∈ es, e.Valid) {number offset : Nat}
    {tail : List (List UInt8)} {c : Content}
    (hc : readLines (number + es.length) (offset + (bytesOf es).length) tail = .ok c) :
    readLines number offset (es.map line ++ tail)
      = .ok (.after es (offset + (bytesOf es).length) c) := by
  induction es generalizing number offset with
  | nil => simpa [Content.after] using hc
  | cons e es ih =>
      have hlen : (bytesOf (e :: es)).length = (line e).length + (bytesOf es).length := by
        simp [bytesOf]
      have hlast : ((line e).getLast? == some newline) = true := by simp [line]
      have hrest : readLines (number + 1) (offset + (line e).length) (es.map line ++ tail)
          = .ok (.after es (offset + (line e).length + (bytesOf es).length) c) := by
        refine ih (fun f hf => h f (List.mem_cons_of_mem _ hf)) ?_
        rw [hlen, ← Nat.add_assoc] at hc
        rwa [List.length_cons, Nat.add_comm es.length 1, ← Nat.add_assoc] at hc
      rw [List.map_cons, List.cons_append, readLines, isBlank_line]
      simp only [Bool.false_eq_true, if_false, ofBytes?_line (h e (List.mem_cons_self ..)), hlast]
      rw [hrest, hlen, ← Nat.add_assoc]
      refine congrArg Except.ok (Content.cons_after e es _ _ c fun hes => ?_)
      simp [hes]

/-! ## Whole segments -/

/-- Whole lines are read as their entries. -/
theorem parse_bytesOf {es : List Entry} (h : ∀ e ∈ es, e.Valid) :
    parse (bytesOf es) = .ok ⟨es, false, (bytesOf es).length, true⟩ := by
  have hlines : lines (bytesOf es) = es.map line ++ [] := by
    simpa [lines] using lines_bytesOf_append es []
  rw [parse, hlines, readLines_append h (c := ⟨[], false, 0, true⟩) rfl]
  by_cases hes : es = [] <;> simp [Content.after, hes]

/-- A part of a line that lacks the end of its entry is torn. -/
theorem parse_torn {es : List Entry} (h : ∀ e ∈ es, e.Valid) {e : Entry} {p q : List UInt8}
    (hp : p ≠ []) (hq : q ≠ []) (hpq : p ++ q = e.bytes) :
    parse (bytesOf es ++ p) = .ok ⟨es, true, (bytesOf es).length, true⟩ := by
  have hnew : newline ∉ p := fun hm =>
    newline_not_mem_bytes e (hpq ▸ List.mem_append_left q hm)
  have hhead : p.head? = some Json.opening := by
    have := head?_bytes e
    rwa [← hpq, List.head?_append, List.head?_eq_some_head hp, Option.some_or,
      ← List.head?_eq_some_head hp] at this
  have hnone := Entry.ofBytes?_eq_none_of_cut hp hq hpq
  have htail : ∀ number offset, readLines number offset [p] = .ok ⟨[], true, 0, true⟩ := by
    intro number offset
    simp [readLines, isBlank_of_head hhead, hnone]
  rw [parse, lines_bytesOf_append, lines_of_not_mem hp hnew, readLines_append h (htail _ _)]
  by_cases hes : es = [] <;> simp [Content.after, hes]

/-- An entry counts before the newline after it is written. -/
theorem parse_unended {es : List Entry} (h : ∀ e ∈ es, e.Valid) {e : Entry} (he : e.Valid) :
    parse (bytesOf es ++ e.bytes)
      = .ok ⟨es ++ [e], false, (bytesOf es ++ e.bytes).length, false⟩ := by
  have hne : e.bytes ≠ [] := by
    obtain ⟨middle, hm⟩ := e.bytes_eq
    simp [hm]
  have hlast : (e.bytes.getLast? == some newline) = false := by
    obtain ⟨middle, hm⟩ := e.bytes_eq
    rw [hm, List.getLast?_concat]
    rfl
  have htail : ∀ number offset, readLines number offset [e.bytes]
      = .ok ⟨[e], false, offset + e.bytes.length, false⟩ := by
    intro number offset
    simp only [readLines, isBlank_of_head (head?_bytes e), Bool.false_eq_true, if_false,
      Entry.ofBytes?_bytes he, hlast]
    rfl
  rw [parse, lines_bytesOf_append, lines_of_not_mem hne (newline_not_mem_bytes e),
    readLines_append h (htail _ _)]
  by_cases hes : es = [] <;> simp [Content.after, hes]

end Reachability.Log.Segment
