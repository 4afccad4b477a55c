import Reachability.Disk.Path

set_option autoImplicit false

/-! # Names in paths

A path that does not end with a slash is its last name, or a front, a slash and its last name. So
its directory and its name are found by `parent` and `name?`, and joining a name to a directory adds
one name to those of the directory. -/

namespace Reachability.Disk.Path

/-- A name that a file can have: something between two slashes that does not lead elsewhere. -/
structure IsName (x : String) : Prop where
  ne_empty : x.toList ≠ []
  ne_here : x ≠ "."
  ne_above : x ≠ ".."
  slash : '/' ∉ x.toList

theorem IsName.toList_ne_here {x : String} (h : IsName x) : x.toList ≠ ['.'] := fun he =>
  h.ne_here (String.toList_inj.1 he)

theorem IsName.toList_ne_above {x : String} (h : IsName x) : x.toList ≠ ['.', '.'] := fun he =>
  h.ne_above (String.toList_inj.1 he)

/-! ## Parts and names -/

theorem parts_ne_nil (p : List Char) : parts p ≠ [] := by
  cases p with
  | nil => simp [parts]
  | cons c cs =>
      unfold parts
      split
      · simp
      · split <;> simp

theorem parts_append_slash (a b : List Char) : parts (a ++ '/' :: b) = parts a ++ parts b := by
  induction a with
  | nil => simp [parts]
  | cons c a ih =>
      rw [List.cons_append, parts, ih, parts]
      by_cases hc : c = '/'
      · simp [hc]
      · rw [if_neg hc, if_neg hc]
        cases hp : parts a with
        | nil => exact absurd hp (parts_ne_nil a)
        | cons part rest => rfl

theorem parts_of_not_mem {p : List Char} (h : '/' ∉ p) : parts p = [p] := by
  induction p with
  | nil => rfl
  | cons c p ih =>
      rw [List.mem_cons, not_or] at h
      rw [parts, if_neg (Ne.symm h.1), ih h.2]

theorem slash_not_mem_of_mem_parts {p part : List Char} (h : part ∈ parts p) : '/' ∉ part := by
  induction p generalizing part with
  | nil =>
      rw [parts, List.mem_singleton] at h
      subst h
      exact List.not_mem_nil
  | cons c p ih =>
      rw [parts] at h
      split at h
      · rcases List.mem_cons.1 h with rfl | h
        · exact List.not_mem_nil
        · exact ih h
      · next hc =>
        split at h
        · next hnil => exact absurd hnil (parts_ne_nil p)
        · next first rest hp =>
          rw [hp] at ih
          rcases List.mem_cons.1 h with rfl | h
          · rw [List.mem_cons, not_or]
            exact ⟨Ne.symm hc, ih (List.mem_cons_self ..)⟩
          · exact ih (List.mem_cons_of_mem _ h)

@[simp] theorem names_nil : names [] = [] := rfl

theorem names_append_slash (a b : List Char) : names (a ++ '/' :: b) = names a ++ names b := by
  simp [names, parts_append_slash]

theorem names_of_not_mem {p : List Char} (hne : p ≠ []) (h : '/' ∉ p) :
    names p = [String.ofList p] := by
  rw [names, parts_of_not_mem h, List.filter_cons_of_pos (by simpa using hne)]
  rfl

theorem names_toList {x : String} (h : IsName x) : names x.toList = [x] := by
  rw [names_of_not_mem h.ne_empty h.slash, String.ofList_toList]

/-- Every name in a path either leads to the same or to the outer directory or is the name of a
    file. -/
theorem isName_of_mem_names {p : List Char} {x : String} (h : x ∈ names p) (hhere : x ≠ ".")
    (habove : x ≠ "..") : IsName x := by
  obtain ⟨part, hpart, rfl⟩ := List.mem_map.1 h
  obtain ⟨hmem, hne⟩ := List.mem_filter.1 hpart
  refine ⟨?_, hhere, habove, ?_⟩
  · rw [String.toList_ofList]
    simpa using hne
  · rw [String.toList_ofList]
    exact slash_not_mem_of_mem_parts hmem

/-! ## The last name -/

/-- A path is a text without slashes, or ends with one after a slash. -/
theorem exists_base (p : List Char) :
    ∃ base, '/' ∉ base ∧ (p = base ∨ ∃ front, p = front ++ '/' :: base) := by
  induction p with
  | nil => exact ⟨[], List.not_mem_nil, .inl rfl⟩
  | cons c p ih =>
      obtain ⟨base, hbase, rfl | ⟨front, rfl⟩⟩ := ih
      · by_cases hc : c = '/'
        · exact ⟨p, hbase, .inr ⟨[], by rw [hc]; rfl⟩⟩
        · refine ⟨c :: p, ?_, .inl rfl⟩
          rw [List.mem_cons, not_or]
          exact ⟨Ne.symm hc, hbase⟩
      · exact ⟨base, hbase, .inr ⟨c :: front, rfl⟩⟩

/-- A path with a last name is that name, or ends with it after a slash. -/
theorem exists_front {p : List Char} {ns : List String} {x : String} (h : names p = ns ++ [x])
    (hlast : p.getLast? ≠ some '/') :
    p = x.toList ∧ ns = [] ∨ ∃ front, p = front ++ '/' :: x.toList ∧ names front = ns := by
  obtain ⟨base, hbase, rfl | ⟨front, rfl⟩⟩ := exists_base p
  · have hne : p ≠ [] := by
      rintro rfl
      simp at h
    rw [names_of_not_mem hne hbase, ← List.nil_append [String.ofList p]] at h
    obtain ⟨hns, hx⟩ := List.append_inj' h rfl
    refine .inl ⟨?_, hns.symm⟩
    rw [← (List.cons.inj hx).1, String.toList_ofList]
  · have hne : base ≠ [] := by
      rintro rfl
      exact hlast List.getLast?_concat
    rw [names_append_slash, names_of_not_mem hne hbase] at h
    obtain ⟨hns, hx⟩ := List.append_inj' h rfl
    refine .inr ⟨front, ?_, hns⟩
    rw [← (List.cons.inj hx).1, String.toList_ofList]

theorem getLast?_ne_slash {p base : List Char} (hne : base ≠ []) (h : '/' ∉ base) :
    (p ++ base).getLast? ≠ some '/' := by
  rw [List.getLast?_append, List.getLast?_eq_some_getLast hne, Option.some_or]
  intro he
  exact h (Option.some.inj he ▸ List.getLast_mem hne)

/-- Nothing is stripped from a path that ends with a name. -/
theorem strip_reverse (front : List Char) {base : List Char} (hne : base ≠ []) (h : '/' ∉ base)
    (hdot : base ≠ ['.']) : strip (front ++ base).reverse = (front ++ base).reverse := by
  obtain ⟨cs, c, rfl⟩ : ∃ cs c, base = cs ++ [c] :=
    ⟨base.dropLast, base.getLast hne, (List.dropLast_concat_getLast hne).symm⟩
  rw [List.mem_append, List.mem_singleton, not_or] at h
  have hrev : (front ++ (cs ++ [c])).reverse = c :: (cs.reverse ++ front.reverse) := by simp
  rw [hrev]
  unfold strip
  split
  · next heq => exact absurd (List.cons.inj heq).1.symm h.2
  · next heq => exact absurd (List.cons.inj heq).1.symm h.2
  · next rest heq =>
    obtain ⟨rfl, htail⟩ := List.cons.inj heq
    cases hcs : cs.reverse with
    | nil => exact absurd (by rw [List.reverse_eq_nil_iff.1 hcs]; rfl) hdot
    | cons b bs =>
        rw [hcs] at htail
        have hb : b = '/' := (List.cons.inj htail).1
        refine absurd (List.mem_reverse.1 ?_) h.1
        rw [hcs, hb]
        exact List.mem_cons_self ..
  · rfl

theorem takeWhile_reverse_append {base : List Char} (h : '/' ∉ base) (rest : List Char)
    (hrest : ∀ c ∈ rest.head?, c = '/') :
    (base.reverse ++ rest).takeWhile (· ≠ '/') = base.reverse := by
  rw [List.takeWhile_append_of_pos]
  · cases rest with
    | nil => simp
    | cons c rest => simp [hrest c rfl]
  · intro c hc
    simpa using fun he : c = '/' => h (he ▸ List.mem_reverse.1 hc)

theorem cut_of_not_mem {base : List Char} (hne : base ≠ []) (h : '/' ∉ base) (hdot : base ≠ ['.']) :
    cut base = ([], base) := by
  have hstrip : strip base.reverse = base.reverse := strip_reverse [] hne h hdot
  have hname := takeWhile_reverse_append h [] nofun
  rw [List.append_nil] at hname
  simp only [cut, hstrip, hname, List.reverse_reverse, List.drop_length]

theorem cut_append {front base : List Char} (hne : base ≠ []) (h : '/' ∉ base)
    (hdot : base ≠ ['.']) : cut (front ++ '/' :: base) = ('/' :: front.reverse, base) := by
  have hrev : (front ++ '/' :: base).reverse = base.reverse ++ '/' :: front.reverse := by simp
  have hstrip := strip_reverse (front ++ ['/']) hne h hdot
  rw [List.append_assoc, List.singleton_append, hrev] at hstrip
  have hname := takeWhile_reverse_append h ('/' :: front.reverse) (by simp)
  simp only [cut, hrev, hstrip, hname, List.drop_left, List.reverse_reverse]

theorem name?_eq {p front base : List Char} (h : cut p = (front, base)) (hne : base ≠ [])
    (hdot : base ≠ ['.']) (hdots : base ≠ ['.', '.']) : name? p = some base := by
  unfold name?
  rw [h]
  split
  · next he => exact absurd he hne
  · next he => exact absurd he hdot
  · next he => exact absurd he hdots
  · rfl

/-- The last name of a path is one that a file can have. -/
theorem isName_of_name? {p base : List Char} (h : name? p = some base) :
    IsName (String.ofList base) := by
  have hbase : base = (cut p).2 ∧ base ≠ [] ∧ base ≠ ['.'] ∧ base ≠ ['.', '.'] := by
    unfold name? at h
    split at h
    · cases h
    · cases h
    · cases h
    · next hne hdot hdots =>
      obtain rfl := Option.some.inj h
      exact ⟨rfl, hne, hdot, hdots⟩
  obtain ⟨hcut, hne, hdot, hdots⟩ := hbase
  have hslash : '/' ∉ base := by
    rw [hcut]
    intro hmem
    simpa using List.all_eq_true.1 List.all_takeWhile _ (List.mem_reverse.1 hmem)
  refine ⟨by rwa [String.toList_ofList], fun he => hdot ?_, fun he => hdots ?_,
    by rwa [String.toList_ofList]⟩
  · exact String.ofList_injective he
  · exact String.ofList_injective he

theorem parent_eq {p front base : List Char} (h : cut p = (front, base)) (hne : base ≠ []) :
    parent p = (strip front).reverse := by
  unfold parent
  rw [h]
  split
  · next he => exact absurd (Prod.mk.inj he).2 hne
  · next he => rw [(Prod.mk.inj he).1]

/-! ## Directories -/

theorem strip_suffix (back : List Char) : strip back <:+ back := by
  induction back using strip.induct with
  | case1 => exact List.suffix_refl _
  | case2 rest hne ih => exact (strip.eq_2 rest hne ▸ ih).trans (List.suffix_cons ..)
  | case3 rest ih => exact (strip.eq_3 rest ▸ ih).trans (List.suffix_cons ..)
  | case4 cs h1 h2 h3 =>
      exact ⟨[], by rw [List.nil_append, strip.eq_4 cs h1 h2 h3]⟩

theorem strip_ne_nil {back : List Char} (h : back ≠ []) : strip back ≠ [] := by
  induction back using strip.induct with
  | case1 => simp [strip]
  | case2 rest hne ih => exact strip.eq_2 rest hne ▸ ih hne
  | case3 rest ih => exact strip.eq_3 rest ▸ ih (by simp)
  | case4 cs h1 h2 h3 =>
      rw [strip.eq_4 cs h1 h2 h3]
      exact h

/-- What is stripped from a path are slashes and names that lead to the same directory. -/
theorem exists_names_strip (back : List Char) :
    ∃ n, names back.reverse = names (strip back).reverse ++ List.replicate n "." := by
  induction back using strip.induct with
  | case1 => exact ⟨0, by simp [strip]⟩
  | case2 rest hne ih =>
      obtain ⟨n, ih⟩ := ih
      refine ⟨n, ?_⟩
      rw [strip.eq_2 rest hne, List.reverse_cons, names_append_slash, names_nil, List.append_nil, ih]
  | case3 rest ih =>
      obtain ⟨n, ih⟩ := ih
      refine ⟨n + 1, ?_⟩
      have hfront : names ('/' :: rest).reverse = names rest.reverse := by
        rw [List.reverse_cons, names_append_slash, names_nil, List.append_nil]
      have hrev : ('.' :: '/' :: rest).reverse = rest.reverse ++ '/' :: ['.'] := by simp
      have hdot : names ['.'] = ["."] := names_of_not_mem (by simp) (by decide)
      rw [strip.eq_3, hrev, names_append_slash, hdot, ← hfront, ih, List.append_assoc,
        ← List.replicate_succ']
  | case4 cs h1 h2 h3 => exact ⟨0, by rw [strip.eq_4 cs h1 h2 h3]; simp⟩

theorem names_join {dir : List Char} {x : String} (h : IsName x) :
    names (join dir x.toList) = names dir ++ [x] := by
  unfold join
  split
  · next hslash =>
    obtain ⟨front, rfl⟩ : ∃ front, dir = front ++ ['/'] := by
      obtain ⟨ys, hys⟩ := List.getLast?_eq_some_iff.1 hslash
      exact ⟨ys, hys⟩
    rw [List.append_assoc, List.singleton_append, names_append_slash, names_append_slash,
      names_toList h, names_nil, List.append_nil]
  · rw [names_append_slash, names_toList h]

/-- A name that is joined to a directory is the last one. -/
theorem name?_join (dir : List Char) {x : String} (h : IsName x) :
    name? (join dir x.toList) = some x.toList := by
  have hfront : ∀ front, name? (front ++ '/' :: x.toList) = some x.toList := fun front =>
    name?_eq (cut_append h.ne_empty h.slash h.toList_ne_here) h.ne_empty h.toList_ne_here
      h.toList_ne_above
  unfold join
  split
  · next hslash =>
    obtain ⟨front, rfl⟩ := List.getLast?_eq_some_iff.1 hslash
    rw [List.append_assoc, List.singleton_append]
    exact hfront front
  · exact hfront dir

theorem join_ne_nil {dir : List Char} (h : dir ≠ []) (name : List Char) : join dir name ≠ [] := by
  unfold join
  split <;> simp [h]

theorem head?_join {dir : List Char} (h : dir ≠ []) (name : List Char) :
    (join dir name).head? = dir.head? := by
  cases dir with
  | nil => exact absurd rfl h
  | cons c cs =>
      unfold join
      split <;> rfl

end Reachability.Disk.Path
