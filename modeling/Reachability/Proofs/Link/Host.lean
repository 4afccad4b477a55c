import Reachability.Proofs.Link
import Reachability.Proofs.Url.Spelling

set_option autoImplicit false

/-! # The host of a link

A link has no colon, so its host is no version 6 address. What is left is decided by the ASCII form
of the name in the link: if it spells a version 4 address, the host is that address; if it does not,
it is the host itself, and no reader of addresses makes anything of it (`Host.parse?_cases`). -/

namespace Reachability

/-! ## Texts without a colon -/

namespace Address

theorem cutDoubleColon?_of_no_colon {cs : List Char} (h : ':' ∉ cs) :
    cutDoubleColon? cs = none := by
  induction cs with
  | nil => rfl
  | cons c cs ih =>
      obtain ⟨hc, hcs⟩ := not_or.1 (mt List.mem_cons.2 h)
      have ih := ih hcs
      rw [cutDoubleColon?, ih, Option.map_none]
      rintro rest rfl
      exact absurd rfl hc

/-- One part by itself makes two groups at the most. -/
theorem length_groups?_singleton {part : List Char} {gs : List Nat} (h : groups? [part] = some gs) :
    gs.length ≤ 2 := by
  unfold groups? at h
  split at h
  · obtain rfl := Option.some.inj h
    exact Nat.le_succ 1
  · obtain ⟨a, -, rfl⟩ := Option.map_eq_some_iff.1 h
    exact Nat.le_refl 2

/-- Without a colon there is no version 6 address. -/
theorem parse6?_of_no_colon {cs : List Char} (h : ':' ∉ cs) : parse6? cs = none := by
  have hsplit : splitAt ':' cs = [cs] := by
    rw [Url.splitAt_eq_splitOn, List.splitOn_eq_singleton h]
  simp only [parse6?, cutDoubleColon?_of_no_colon h, hsplit]
  cases hgroups : groups? [cs] with
  | none => rfl
  | some gs =>
      have hlength := length_groups?_singleton hgroups
      exact if_neg (by omega)

/-- A text without a colon that is an address spells a version 4 address. -/
theorem spells_of_parse? {cs : List Char} {a : Address} (h : ':' ∉ cs)
    (hread : parse? cs = some a) : ∃ b, a = .v4 b ∧ Url.Spells cs b := by
  unfold parse? at hread
  split at hread
  · next b hb => exact ⟨b, (Option.some.inj hread).symm, Url.spells_of_parse4? hb⟩
  · rw [parse6?_of_no_colon h] at hread
    cases hread

end Address

namespace Domain

/-- A domain name has no colon. -/
theorem no_colon_of_toAscii? {cs name : List Char} (h : toAscii? cs = some name) : ':' ∉ name := by
  simp only [toAscii?, Option.bind_eq_bind, Option.bind_eq_some_iff] at h
  obtain ⟨normal, -, meanings, -, h⟩ := h
  split at h
  · cases h
  · obtain ⟨labels, -, h⟩ := Option.bind_eq_some_iff.1 h
    split at h
    · cases h
    · next hallowed =>
      obtain rfl := Option.some.inj h
      intro hmem
      exact hallowed (List.any_eq_true.2 ⟨':', hmem, by decide⟩)

end Domain

namespace Url

/-! ## Reading a host -/

/-- The ASCII form of a name in a URL, with its escapes read. -/
def asciiName? (cs : List Char) : Option (List Char) :=
  (Text.ofBytes? (percentDecode (Text.utf8 cs))).bind fun decoded => Domain.toAscii? decoded.toList

theorem bracketed?_of_no_colon {cs : List Char} (h : ':' ∉ cs) : bracketed? cs = none := by
  have hinner : ':' ∉ (cs.drop 1).dropLast := fun hmem =>
    h (List.mem_of_mem_drop ((List.dropLast_sublist _).subset hmem))
  rw [bracketed?, Address.parse6?_of_no_colon hinner, Option.map_none, ite_self]

theorem mem_of_mem_nameSide {cs : List Char} {c : Char} (h : c ∈ nameSide cs) : c ∈ cs := by
  unfold nameSide at h
  cases hcut : cutLastAt? cs with
  | none =>
      rw [hcut] at h
      exact h
  | some parts =>
      rw [hcut] at h
      exact (mem_of_cutLastAt? hcut).2 c h

/-- A name that is a host is the version 4 address that its ASCII form spells, or else its ASCII
    form, which is no address. -/
theorem Host.parse?_cases {cs : List Char} {host : Host} (hcolon : ':' ∉ cs)
    (h : Host.parse? cs = some host) : ∃ name, asciiName? cs = some name ∧
      ((∃ a, Spells name a ∧ host = .address (.v4 a)) ∨
        ((∀ a, ¬ Spells name a) ∧ Address.parse? name = none ∧ host = .domain name)) := by
  unfold Host.parse? at h
  split at h
  · rw [bracketed?_of_no_colon hcolon] at h
    cases h
  · obtain ⟨decoded, hdecoded, h⟩ := Option.bind_eq_some_iff.1 h
    obtain ⟨name, hname, h⟩ := Option.bind_eq_some_iff.1 h
    refine ⟨name, by rw [asciiName?, hdecoded, Option.bind_some, hname], ?_⟩
    split at h
    · cases h
    split at h
    · obtain ⟨a, ha, rfl⟩ := Option.map_eq_some_iff.1 h
      exact .inl ⟨a, address4?_eq_some_iff.1 ha, rfl⟩
    · next hworded =>
      have hspells : ∀ a, ¬ Spells name a := fun a ha => hworded (endsInNumber_of_spells ha)
      refine .inr ⟨hspells, ?_, (Option.some.inj h).symm⟩
      refine Option.eq_none_iff_forall_ne_some.2 fun a ha => ?_
      obtain ⟨b, -, hb⟩ := Address.spells_of_parse? (Domain.no_colon_of_toAscii? hname) ha
      exact hspells b hb

theorem namedHost?_of_host {u : Url} {host : Host} (h : u.host = some host)
    (hne : host ≠ .domain []) : u.namedHost? = some host := by
  unfold namedHost?
  split
  · next hempty => exact absurd (Option.some.inj (h.symm.trans hempty)) hne
  · exact h

end Url

namespace Link

/-! ## The name in a link -/

/-- What stands for the host in a link: what is left of it without its blanks, without what stands
    before an at sign, and without what stands behind a backslash. -/
def name (link : String) : List Char :=
  Url.nameSide (Url.hostSide (content (Text.trimChars link.toList)))

/-- The host of the URL of a link is read from the name in it. -/
theorem parse?_name {link : String} {u : Url} (h : candidate? link = some u) :
    ':' ∉ name link ∧ ∃ host, Url.Host.parse? (name link) = some host ∧ u.host = some host ∧
      u.namedHost? = some host := by
  obtain ⟨bare, hbare, hparse⟩ := Option.bind_eq_some_iff.1 h
  obtain ⟨rfl, hmarks⟩ := bare?_eq_some hbare
  have hcontent : ∀ c ∈ content (Text.trimChars link.toList), marksMore c = false :=
    fun c hc => hmarks c (mem_of_mem_content hc)
  rw [parse?_address, Url.withAuthority?_of_bare hcontent] at hparse
  split at hparse
  · cases hparse
  obtain ⟨host, hhost, rfl⟩ := Option.map_eq_some_iff.1 hparse
  refine ⟨fun hmem => ?_, host, hhost, rfl,
    Url.namedHost?_of_host rfl (Url.Host.parse?_ne_empty hhost)⟩
  have hside := (List.takeWhile_sublist _).subset (Url.mem_of_mem_nameSide hmem)
  exact Url.ne_colon_of_bare hcontent ':' hside rfl

end Link

end Reachability
