import Reachability.Text.Blank

set_option autoImplicit false

/-! # Blanks at the ends of a text

Trimming takes blanks from both ends of a text and nothing else (`exists_trimChars`), and it takes
all of them (`trimChars_append`). -/

namespace Reachability.Text

theorem dropBlank_append {front : List Char} (h : ∀ c ∈ front, isBlank c = true)
    (rest : List Char) : dropBlank (front ++ rest) = dropBlank rest :=
  List.dropWhile_append_of_pos h

/-- Nothing is dropped from characters that start with something else than a blank. -/
theorem dropBlank_of_head? {cs : List Char} (h : ∀ c ∈ cs.head?, isBlank c = false) :
    dropBlank cs = cs := by
  cases cs with
  | nil => rfl
  | cons c cs => exact dropBlank_cons_of_not_isBlank (h c rfl)

theorem exists_dropBlank (cs : List Char) :
    ∃ front, cs = front ++ dropBlank cs ∧ ∀ c ∈ front, isBlank c = true :=
  ⟨cs.takeWhile isBlank, List.takeWhile_append_dropWhile.symm, List.all_eq_true.1 List.all_takeWhile⟩

/-- Only blanks are trimmed off. -/
theorem exists_trimChars (cs : List Char) : ∃ front back, cs = front ++ trimChars cs ++ back ∧
    (∀ c ∈ front, isBlank c = true) ∧ ∀ c ∈ back, isBlank c = true := by
  obtain ⟨front, hfront, hf⟩ := exists_dropBlank cs
  obtain ⟨back, hback, hb⟩ := exists_dropBlank (dropBlank cs).reverse
  refine ⟨front, back.reverse, ?_, hf, fun c hc => hb c (List.mem_reverse.1 hc)⟩
  have hrest : dropBlank cs = trimChars cs ++ back.reverse := by
    rw [trimChars, ← List.reverse_append, ← hback, List.reverse_reverse]
  rw [List.append_assoc, ← hrest, ← hfront]

/-- All blanks before the first and behind the last other character are trimmed off. -/
theorem trimChars_append {front core back : List Char} (hfront : ∀ c ∈ front, isBlank c = true)
    (hback : ∀ c ∈ back, isBlank c = true) (hne : core ≠ [])
    (hhead : ∀ c ∈ core.head?, isBlank c = false) (hlast : ∀ c ∈ core.getLast?, isBlank c = false) :
    trimChars (front ++ core ++ back) = core := by
  have hstart : dropBlank (front ++ (core ++ back)) = core ++ back := by
    rw [dropBlank_append hfront, dropBlank_of_head?]
    rwa [List.head?_append, List.head?_eq_some_head hne, Option.some_or,
      ← List.head?_eq_some_head hne]
  have hstop : dropBlank (back.reverse ++ core.reverse) = core.reverse := by
    rw [dropBlank_append fun c hc => hback c (List.mem_reverse.1 hc), dropBlank_of_head?]
    rwa [List.head?_reverse]
  rw [trimChars, List.append_assoc, hstart, List.reverse_append, hstop, List.reverse_reverse]

end Reachability.Text
