set_option autoImplicit false

/-! # Beginnings and endings

The cutting of a given beginning or ending from a text. -/

namespace Reachability.Text

/-- The characters after `lead`, if they start so. -/
def cutLead? (lead cs : List Char) : Option (List Char) :=
  if lead.isPrefixOf cs then some (cs.drop lead.length) else none

/-- The characters before `ending`, if they end so. -/
def cutEnding? (ending cs : List Char) : Option (List Char) :=
  if ending.isSuffixOf cs then some (cs.take (cs.length - ending.length)) else none

section Affix

variable {lead ending cs front rest : List Char}

theorem cutLead?_append (lead rest : List Char) : cutLead? lead (lead ++ rest) = some rest := by
  rw [cutLead?, if_pos (List.isPrefixOf_iff_prefix.2 (List.prefix_append ..)), List.drop_left]

theorem cutLead?_eq_some_iff : cutLead? lead cs = some rest ↔ cs = lead ++ rest := by
  constructor
  · intro h
    unfold cutLead? at h
    split at h
    · next hlead =>
      obtain ⟨t, rfl⟩ := List.isPrefixOf_iff_prefix.1 hlead
      rw [List.drop_left] at h
      rw [Option.some.inj h]
    · cases h
  · rintro rfl
    exact cutLead?_append lead rest

theorem cutEnding?_append (front ending : List Char) :
    cutEnding? ending (front ++ ending) = some front := by
  rw [cutEnding?, if_pos (List.isSuffixOf_iff_suffix.2 (List.suffix_append ..)),
    List.length_append, Nat.add_sub_cancel, List.take_left]

theorem cutEnding?_eq_some_iff : cutEnding? ending cs = some front ↔ cs = front ++ ending := by
  constructor
  · intro h
    unfold cutEnding? at h
    split at h
    · next hending =>
      obtain ⟨t, rfl⟩ := List.isSuffixOf_iff_suffix.1 hending
      rw [List.length_append, Nat.add_sub_cancel, List.take_left] at h
      rw [Option.some.inj h]
    · cases h
  · rintro rfl
    exact cutEnding?_append front ending

theorem cutEnding?_eq_none (h : ∀ front, cs ≠ front ++ ending) : cutEnding? ending cs = none :=
  Option.eq_none_iff_forall_ne_some.2 fun front hfront => h front (cutEnding?_eq_some_iff.1 hfront)

end Affix

end Reachability.Text
