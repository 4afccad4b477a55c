import Reachability.Disk.Tree
import Reachability.Proofs.Disk.Path
import Reachability.Proofs.Table

set_option autoImplicit false

/-! # Files in a directory

How the accesses work on a file that a path leads to, and that they change nothing else. The files
of a directory that was empty once (`Vacant`) are all there is below it, and no path to a directory
goes through them. So a path that led there leads there as long as nothing else changes
(`goal_sameOutside`). -/

namespace Reachability.Disk

open Reachability.Disk.Path (IsName)

/-! ## Nodes -/

/-- A place that is on a disk only if the disk has a node for it. -/
def Ordinary (p : Place) : Prop := ¬ (isAround p = true ∨ p ∈ standing) ∧ device? p = none

theorem Ordinary.node?_eq {p : Place} (h : Ordinary p) (d : Disk) :
    d.node? p = d.nodes.get? p := by
  rw [node?, if_neg h.1, h.2]

theorem ordinary_of_node?_eq_none {d : Disk} {p : Place} (h : d.node? p = none) : Ordinary p := by
  unfold node? at h
  split at h
  · cases h
  · next hp =>
    split at h
    · cases h
    · next hdev => exact ⟨hp, hdev⟩

theorem node?_congr {d d' : Disk} {p : Place} (h : d'.nodes.get? p = d.nodes.get? p) :
    d'.node? p = d.node? p := by
  rw [node?, node?, h]

theorem get?_eq_none_of_node?_eq_none {d : Disk} {p : Place} (h : d.node? p = none) :
    d.nodes.get? p = none := by
  rw [← (ordinary_of_node?_eq_none h).node?_eq, h]

@[simp] theorem get?_put (d : Disk) (p q : Place) (n : Node) :
    (d.put p n).nodes.get? q = if q = p then some n else d.nodes.get? q :=
  Table.get?_insert ..

/-! ## The way to a directory -/

theorem walk_append (d : Disk) (here : Place) (a b : List String) :
    d.walk here (a ++ b) = (d.walk here a).bind fun p => d.walk p b := by
  induction a generalizing here with
  | nil => rfl
  | cons n a ih =>
      rw [List.cons_append, walk, walk]
      cases entry here n with
      | error f => rfl
      | ok next =>
          simp only [bind, Except.bind]
          split
          · exact ih next
          · rfl
          · rfl

/-- A way that goes on ends in a directory. -/
theorem walk_directory {d : Disk} {here p : Place} {ns : List String} (h : d.walk here ns = .ok p)
    (hhere : ∃ t, d.node? here = some (.directory t)) : ∃ t, d.node? p = some (.directory t) := by
  induction ns generalizing here with
  | nil =>
      rw [walk] at h
      cases h
      exact hhere
  | cons n ns ih =>
      rw [walk] at h
      cases he : entry here n with
      | error f =>
          rw [he] at h
          cases h
      | ok next =>
          rw [he] at h
          simp only [bind, Except.bind] at h
          split at h
          · next t ht => exact ih h ⟨t, ht⟩
          · cases h
          · cases h

theorem walk_singleton {d : Disk} {here p : Place} {n : String} (h : d.walk here [n] = .ok p) :
    entry here n = .ok p := by
  rw [walk] at h
  cases he : entry here n with
  | error f =>
      rw [he] at h
      cases h
  | ok next =>
      rw [he] at h
      simp only [bind, Except.bind] at h
      split at h
      · exact congrArg Except.ok (Except.ok.inj h)
      · cases h
      · cases h

/-- Names that lead to the same directory can be left out at the end. -/
theorem walk_of_replicate {d : Disk} {here p : Place} {ns : List String} {n : Nat}
    (h : d.walk here (ns ++ List.replicate n ".") = .ok p) : d.walk here ns = .ok p := by
  induction n generalizing p with
  | zero => simpa using h
  | succ n ih =>
      rw [List.replicate_succ', ← List.append_assoc, walk_append] at h
      cases hw : d.walk here (ns ++ List.replicate n ".") with
      | error f =>
          rw [hw] at h
          cases h
      | ok q =>
          rw [hw] at h
          have he := walk_singleton h
          rw [entry, if_pos rfl] at he
          rw [← Except.ok.inj he]
          exact ih hw

/-- Where the way of a path begins. -/
def start (path : List Char) : Place := if path.head? = some '/' then ["/"] else []

theorem start_directory (d : Disk) (path : List Char) :
    ∃ t, d.node? (start path) = some (.directory t) := by
  refine ⟨0, ?_⟩
  unfold start
  split
  · exact if_pos (.inr (by decide))
  · exact if_pos (.inl rfl)

/-! ## What a path ends with -/

theorem goal_eq {d : Disk} {path : List Char} (hne : path ≠ [])
    (hsize : ¬ longestPath < (String.ofList path).utf8ByteSize) {ns : List String} {n : String}
    (hnames : Path.names path = ns ++ [n]) {here : Place} (hw : d.walk (start path) ns = .ok here) :
    d.goal path = if n = "." ∨ n = ".." then (entry here n).map .unnamed else .ok (.named here n) := by
  have hempty : path.isEmpty = false := by simpa using hne
  unfold start at hw
  simp only [goal, hempty, Bool.false_eq_true, if_false, if_neg hsize, hnames,
    List.dropLast_concat, hw, List.getLast?_concat, bind, Except.bind]

theorem goal_of_long {d : Disk} {path : List Char} (hne : path ≠ [])
    (h : longestPath < (String.ofList path).utf8ByteSize) : d.goal path = .error .nameTooLong := by
  have hempty : path.isEmpty = false := by simpa using hne
  simp only [goal, hempty, Bool.false_eq_true, if_false, if_pos h]

/-- A path that leads through directories only leads to the last of them. -/
theorem resolve_of_walk {d : Disk} {path : List Char} (hne : path ≠ [])
    (hsize : ¬ longestPath < (String.ofList path).utf8ByteSize) {here : Place}
    (hw : d.walk (start path) (Path.names path) = .ok here) : d.resolve path = .ok here := by
  rcases List.eq_nil_or_concat (Path.names path) with hnil | ⟨ns, n, hns⟩
  · have hempty : path.isEmpty = false := by simpa using hne
    rw [hnil, walk] at hw
    have hstart := Except.ok.inj hw
    unfold start at hstart
    simp only [resolve, goal, hempty, Bool.false_eq_true, if_false, if_neg hsize, hnil,
      List.dropLast_nil, walk, List.getLast?_nil, bind, Except.bind, hstart]
  · rw [List.concat_eq_append] at hns
    rw [hns, walk_append] at hw
    cases hfront : d.walk (start path) ns with
    | error f =>
        rw [hfront] at hw
        cases hw
    | ok front =>
        rw [hfront] at hw
        have hlast := walk_singleton hw
        rw [resolve, goal_eq hne hsize hns hfront]
        split
        · rw [hlast]
          rfl
        · exact hlast

theorem find_directory {d : Disk} {path : List Char} {here : Place} {t : Int}
    (h : d.resolve path = .ok here) (hn : d.node? here = some (.directory t)) :
    d.find path = .ok (here, .directory t) := by
  simp only [find, h, hn, bind, Except.bind]

/-- What is known of a path that ends with a name in a directory. -/
theorem goal_named {d : Disk} {path : List Char} {here : Place} {name : String}
    (h : d.goal path = .ok (.named here name)) :
    path ≠ [] ∧ ¬ longestPath < (String.ofList path).utf8ByteSize ∧ IsName name ∧
      ∃ ns, Path.names path = ns ++ [name] ∧ d.walk (start path) ns = .ok here := by
  unfold goal at h
  split at h
  · cases h
  · next hne =>
    split at h
    · cases h
    · next hsize =>
      have hne : path ≠ [] := by simpa using hne
      refine ⟨hne, hsize, ?_⟩
      cases hw : d.walk (start path) (Path.names path).dropLast with
      | error f =>
          unfold start at hw
          simp only [hw, bind, Except.bind] at h
          cases h
      | ok front =>
          have hw' := hw
          unfold start at hw'
          simp only [hw', bind, Except.bind] at h
          split at h
          · cases h
          · next n hn =>
            obtain ⟨ns, hns⟩ := List.getLast?_eq_some_iff.1 hn
            -- A name with dots only is looked up at once, and so it is not answered as a name.
            split at h
            · cases he : entry front n with
              | error f =>
                  rw [he] at h
                  cases h
              | ok p =>
                  rw [he] at h
                  cases h
            · next hdots =>
              have heq := Goal.named.inj (Except.ok.inj h)
              rw [not_or] at hdots
              rw [← heq.1, ← heq.2]
              refine ⟨Path.isName_of_mem_names (p := path) (by simp [hns]) hdots.1 hdots.2, ns, hns, ?_⟩
              rwa [hns, List.dropLast_concat] at hw

/-! ## A directory that was empty -/

/-- Places in one directory are told apart by their names. -/
theorem name_inj {here : Place} {x y : String} (h : here ++ [x] = here ++ [y]) : x = y :=
  List.singleton_inj.1 (List.append_cancel_left h)

/-- A directory in which there is nothing. -/
structure Vacant (d : Disk) (here : Place) : Prop where
  node : ∀ x rest, IsName x → d.node? (here ++ x :: rest) = none
  unlisted : ∀ x, d.nodes.get? (here ++ [x]) = none

theorem Vacant.ordinary {d : Disk} {here : Place} (h : Vacant d here) {x : String}
    (hx : IsName x) : Ordinary (here ++ [x]) :=
  ordinary_of_node?_eq_none (h.node x [] hx)

/-- The working directory of an empty disk is empty. -/
theorem vacant_empty : Vacant ⟨.empty⟩ [] where
  node x rest hx := by
    have haround : isAround (x :: rest) = false := by
      simp [isAround, hx.ne_above]
    have hroot : x ≠ "/" := by
      rintro rfl
      exact hx.slash (by decide)
    have hstanding : (x :: rest) ∉ standing := by
      simp [standing, devices, hroot]
    have hdevice : device? (x :: rest) = none := by
      rw [device?, List.find?_eq_none]
      intro k _
      simp [devices, hroot]
    rw [List.nil_append, node?, if_neg (by simp [haround, hstanding]), hdevice]
    rfl
  unlisted x := rfl

/-- Two disks are the same apart from what is right in a directory. -/
def SameOutside (here : Place) (d d' : Disk) : Prop :=
  ∀ p, (∀ x, IsName x → p ≠ here ++ [x]) → d'.node? p = d.node? p

theorem SameOutside.refl (here : Place) (d : Disk) : SameOutside here d d := fun _ _ => rfl

theorem SameOutside.trans {here : Place} {d d' d'' : Disk} (h : SameOutside here d d')
    (h' : SameOutside here d' d'') : SameOutside here d d'' := fun p hp =>
  (h' p hp).trans (h p hp)

theorem SameOutside.of_get? {here : Place} {d d' : Disk}
    (h : ∀ p, (∀ x, IsName x → p ≠ here ++ [x]) → d'.nodes.get? p = d.nodes.get? p) :
    SameOutside here d d' := fun p hp =>
  node?_congr (h p hp)

/-- Every directory is still there. -/
def KeepsDirectories (d d' : Disk) : Prop :=
  ∀ p t, d.node? p = some (.directory t) → d'.node? p = some (.directory t)

section Keeps

variable {d d' : Disk} (h : KeepsDirectories d d')

include h

theorem walk_of_keeps {p q : Place} {ns : List String} (hw : d.walk p ns = .ok q) :
    d'.walk p ns = .ok q := by
  induction ns generalizing p with
  | nil => exact hw
  | cons n ns ih =>
      rw [walk] at hw ⊢
      cases he : entry p n with
      | error f =>
          rw [he] at hw
          cases hw
      | ok next =>
          rw [he] at hw
          simp only [bind, Except.bind] at hw ⊢
          split at hw
          · next t ht =>
            simp only [h next t ht]
            exact ih hw
          · cases hw
          · cases hw

theorem goal_of_keeps {path : List Char} {here : Place} {x : String}
    (hg : d.goal path = .ok (.named here x)) : d'.goal path = .ok (.named here x) := by
  obtain ⟨hne, hsize, hx, ns, hns, hw⟩ := goal_named hg
  rw [goal_eq hne hsize hns (walk_of_keeps h hw), if_neg]
  rw [not_or]
  exact ⟨hx.ne_here, hx.ne_above⟩

end Keeps

/-- The way to a directory leads through no directory that was empty, as there it would end: what
    was right in it was no directory. -/
theorem Vacant.keepsDirectories {d d' : Disk} {here : Place} (hv : Vacant d here)
    (hs : SameOutside here d d') : KeepsDirectories d d' := by
  intro p t ht
  have hsame : d'.node? p = d.node? p := by
    refine hs p fun x hx heq => ?_
    rw [heq, hv.node x [] hx] at ht
    cases ht
  rw [hsame, ht]

theorem walk_sameOutside {d d' : Disk} {here p q : Place} {ns : List String} (hv : Vacant d here)
    (hs : SameOutside here d d') (hw : d.walk p ns = .ok q) : d'.walk p ns = .ok q :=
  walk_of_keeps (hv.keepsDirectories hs) hw

theorem goal_sameOutside {d d' : Disk} {here front : Place} {path : List Char} {x : String}
    (hv : Vacant d here) (hs : SameOutside here d d') (h : d.goal path = .ok (.named front x)) :
    d'.goal path = .ok (.named front x) :=
  goal_of_keeps (hv.keepsDirectories hs) h

/-! ## A file in a directory -/

/-- A path leads to a place where a file can be. -/
structure Reaches (d : Disk) (path : List Char) (p : Place) : Prop where
  goal : ∃ here name, d.goal path = .ok (.named here name)
  resolve : d.resolve path = .ok p
  file : wantsDirectory path = false
  ordinary : Ordinary p

theorem reaches_of_goal {d : Disk} {path : List Char} {here : Place} {x : String}
    (hg : d.goal path = .ok (.named here x)) (hf : wantsDirectory path = false)
    (hx : ¬ longestName < x.utf8ByteSize) (ho : Ordinary (here ++ [x])) :
    Reaches d path (here ++ [x]) := by
  obtain ⟨-, -, hname, -⟩ := goal_named hg
  refine ⟨⟨here, x, hg⟩, ?_, hf, ho⟩
  simp only [Disk.resolve, hg, bind, Except.bind, entry, if_neg hname.ne_here,
    if_neg hname.ne_above, if_neg hx]

section Reaches

variable {d : Disk} {path : List Char} {p : Place}

theorem Reaches.find_none (h : Reaches d path p) (hn : d.nodes.get? p = none) :
    d.find path = .error .notFound := by
  rw [← h.ordinary.node?_eq] at hn
  simp only [find, h.resolve, hn, bind, Except.bind]

variable {content : List UInt8} {t : Int}

theorem Reaches.find_file (h : Reaches d path p) (hn : d.nodes.get? p = some (.file content t)) :
    d.find path = .ok (p, .file content t) := by
  rw [← h.ordinary.node?_eq] at hn
  simp only [find, h.resolve, hn, h.file, bind, Except.bind, Bool.false_eq_true, if_false]

theorem Reaches.filePlace_eq (h : Reaches d path p)
    (hn : ∀ t, d.nodes.get? p ≠ some (.directory t)) : d.filePlace path = .ok p := by
  obtain ⟨here, name, hg⟩ := h.goal
  have he : entry here name = .ok p := by
    have hr := h.resolve
    simpa only [Disk.resolve, hg, bind, Except.bind] using hr
  simp only [filePlace, hg, h.file, he, bind, Except.bind, Bool.false_eq_true, if_false]
  split
  · next t ht =>
    rw [h.ordinary.node?_eq] at ht
    exact absurd ht (hn t)
  · rfl

theorem Reaches.stat_none (h : Reaches d path p) (hn : d.nodes.get? p = none) :
    d.stat path = .error .notFound := by
  rw [stat, h.find_none hn]
  rfl

theorem Reaches.stat_file (h : Reaches d path p) (hn : d.nodes.get? p = some (.file content t)) :
    d.stat path = .ok ⟨content.length, t⟩ := by
  rw [stat, h.find_file hn]
  rfl

theorem Reaches.read_none (h : Reaches d path p) (hn : d.nodes.get? p = none) :
    d.read path = .error .notFound := by
  rw [read, h.find_none hn]
  rfl

theorem Reaches.read_file (h : Reaches d path p) (hn : d.nodes.get? p = some (.file content t)) :
    d.read path = .ok content := by
  rw [read, h.find_file hn]
  rfl

variable {now : Int}

theorem Reaches.openAppend_none (h : Reaches d path p) (hn : d.nodes.get? p = none) :
    d.openAppend now path = .ok (0, d.put p (.file [] now)) := by
  have hplace := h.filePlace_eq fun t => by rw [hn]; exact nofun
  simp only [openAppend, hplace, h.ordinary.node?_eq, hn, bind, Except.bind]

theorem Reaches.openAppend_file (h : Reaches d path p)
    (hn : d.nodes.get? p = some (.file content t)) :
    d.openAppend now path = .ok (content.length, d) := by
  have hplace := h.filePlace_eq fun t => by rw [hn]; exact nofun
  simp only [openAppend, hplace, h.ordinary.node?_eq, hn, bind, Except.bind]
  rfl

theorem Reaches.append_file (h : Reaches d path p) (hn : d.nodes.get? p = some (.file content t))
    (bs : List UInt8) :
    d.append now path bs = .ok (d.put p (.file (content ++ bs) now)) := by
  rw [append, h.find_file hn]
  rfl

theorem Reaches.truncate_file (h : Reaches d path p)
    (hn : d.nodes.get? p = some (.file content t)) (n : Nat) :
    d.truncate now path n = .ok (d.put p (.file (content.take n) now)) := by
  rw [truncate, h.find_file hn]
  rfl

theorem Reaches.sync_file (h : Reaches d path p) (hn : d.nodes.get? p = some (.file content t)) :
    d.sync path = .ok () := by
  rw [sync, h.find_file hn]

theorem Reaches.remove_file (h : Reaches d path p)
    (hn : d.nodes.get? p = some (.file content t)) :
    d.remove path = .ok ⟨d.nodes.erase p⟩ := by
  rw [remove, h.find_file hn]
  rfl

end Reaches

/-! ## Paths that lead nowhere -/

theorem find_of_resolve_error {d : Disk} {path : List Char} {f : Fault}
    (h : d.resolve path = .error f) : d.find path = .error f := by
  simp only [find, h, bind, Except.bind]

theorem stat_of_resolve_error {d : Disk} {path : List Char} {f : Fault}
    (h : d.resolve path = .error f) : d.stat path = .error f := by
  rw [stat, find_of_resolve_error h]
  rfl

theorem rename_of_resolve_error {d : Disk} {old new : List Char} {p : Place} {f : Fault}
    (ho : Reaches d old p) {content : List UInt8} {t : Int}
    (hn : d.nodes.get? p = some (.file content t)) (h : d.resolve new = .error f) :
    d.rename old new = .error f := by
  obtain ⟨here, name, hg⟩ := ho.goal
  unfold resolve at h
  cases hgn : d.goal new with
  | error f' =>
      rw [hgn] at h
      simp only [rename, hg, hgn, bind, Except.bind]
      exact congrArg Except.error (Except.error.inj h)
  | ok g =>
      rw [hgn] at h
      simp only [bind, Except.bind] at h
      cases g with
      | unnamed q => cases h
      | named front x =>
          simp only [rename, hg, hgn, ho.find_file hn, bind, Except.bind, resolve] at h ⊢
          rw [h]

/-! ## Moving a file -/

theorem movedPlace_of_no_below {p q r : Place} (h : ∀ x rest, r ≠ p ++ x :: rest) :
    movedPlace p q r = if r = p then q else r := by
  unfold movedPlace
  split
  · next hp =>
    obtain ⟨s, rfl⟩ := List.isPrefixOf_iff_prefix.1 hp
    cases s with
    | nil => simp
    | cons x rest => exact absurd rfl (h x rest)
  · next hp =>
    rw [if_neg]
    rintro rfl
    exact hp (List.isPrefixOf_iff_prefix.2 (List.prefix_refl r))

section Moved

variable {d : Disk} {p q : Place} (hbelow : ∀ x rest, d.nodes.get? (p ++ x :: rest) = none)

include hbelow

/-- If nothing lies below a file, only its own entry moves. -/
theorem mem_moved {r : Place} {n : Node} :
    (r, n) ∈ ((d.nodes.erase q).entries.map fun e => (movedPlace p q e.1, e.2)) ↔
      ∃ r', r' ≠ q ∧ d.nodes.get? r' = some n ∧ (if r' = p then q else r') = r := by
  have hkeep : ∀ r' n', d.nodes.get? r' = some n' →
      movedPlace p q r' = if r' = p then q else r' := by
    intro r' n' hget
    refine movedPlace_of_no_below fun x rest hx => ?_
    rw [hx, hbelow] at hget
    cases hget
  rw [List.mem_map]
  constructor
  · rintro ⟨⟨r', n'⟩, he, heq⟩
    rw [Table.mem_entries_iff, Table.get?_erase] at he
    split at he
    · cases he
    · next hr' =>
      obtain ⟨hplace, rfl⟩ := Prod.mk.inj heq
      exact ⟨r', hr', he, hkeep r' n' he ▸ hplace⟩
  · rintro ⟨r', hr', hget, rfl⟩
    refine ⟨(r', n), Table.mem_entries_iff.2 (by rw [Table.get?_erase, if_neg hr', hget]), ?_⟩
    rw [hkeep r' n hget]

theorem get?_moved {n : Node} (hn : d.nodes.get? p = some n) (hne : p ≠ q) (r : Place) :
    (Table.ofList ((d.nodes.erase q).entries.map fun e => (movedPlace p q e.1, e.2))).get? r =
      if r = q then some n else if r = p then none else d.nodes.get? r := by
  have hmem := fun r n => @mem_moved d p q hbelow r n
  by_cases hrq : r = q
  · subst hrq
    rw [if_pos rfl]
    refine Table.get?_ofList_of_mem ((hmem _ _).2 ⟨p, hne, hn, if_pos rfl⟩) fun n' hn' => ?_
    obtain ⟨r', hr', hget, heq⟩ := (hmem _ _).1 hn'
    split at heq
    · next hp =>
      rw [hp, hn] at hget
      exact (Option.some.inj hget).symm
    · exact absurd heq hr'
  rw [if_neg hrq]
  by_cases hrp : r = p
  · subst hrp
    rw [if_pos rfl]
    refine Table.get?_ofList_of_not_mem fun n' hn' => ?_
    obtain ⟨r', -, -, heq⟩ := (hmem _ _).1 hn'
    split at heq
    · exact hrq heq.symm
    · next hp => exact hp heq
  rw [if_neg hrp]
  -- Every other place has the entry that it had.
  cases hr : d.nodes.get? r with
  | none =>
      refine Table.get?_ofList_of_not_mem fun n' hn' => ?_
      obtain ⟨r', -, hget, heq⟩ := (hmem _ _).1 hn'
      split at heq
      · exact hrq heq.symm
      · rw [heq, hr] at hget
        cases hget
  | some n' =>
      refine Table.get?_ofList_of_mem ((hmem _ _).2 ⟨r, hrq, hr, if_neg hrp⟩) fun n'' hn'' => ?_
      obtain ⟨r', -, hget, heq⟩ := (hmem _ _).1 hn''
      split at heq
      · exact absurd heq.symm hrq
      · rw [heq, hr] at hget
        exact (Option.some.inj hget).symm

end Moved

/-- A file that is moved to a free place leaves its own place free, and nothing else changes. -/
theorem rename_file {d : Disk} {old new : List Char} {p q : Place} (ho : Reaches d old p)
    (hq : Reaches d new q) {content : List UInt8} {t : Int}
    (hn : d.nodes.get? p = some (.file content t)) (hfree : d.nodes.get? q = none)
    (hbelow : ∀ x rest, d.nodes.get? (p ++ x :: rest) = none) :
    ∃ d', d.rename old new = .ok d' ∧ ∀ r, d'.nodes.get? r =
      if r = q then some (.file content t) else if r = p then none else d.nodes.get? r := by
  obtain ⟨here, name, hg⟩ := ho.goal
  obtain ⟨here', name', hg'⟩ := hq.goal
  have hnode : d.node? q = none := by rw [hq.ordinary.node?_eq, hfree]
  have hne : p ≠ q := by
    rintro rfl
    rw [hn] at hfree
    cases hfree
  refine ⟨_, ?_, get?_moved hbelow hn hne⟩
  simp only [rename, hg, hg', ho.find_file hn, hq.resolve, hnode, bind, Except.bind]
  rfl

/-- The path of a name in a directory can lead to a file. -/
theorem wantsDirectory_join (dir : List Char) {x : String} (h : IsName x) :
    wantsDirectory (Path.join dir x.toList) = false := by
  have hlast := Path.getLast?_ne_slash (p := dir) h.ne_empty h.slash
  have hlast' := Path.getLast?_ne_slash (p := dir ++ ['/']) h.ne_empty h.slash
  unfold wantsDirectory Path.join
  split
  · simpa using hlast
  · simpa using hlast'

/-! ## Listing a directory -/

theorem nameIn?_eq_some {here p : Place} {x : String} :
    nameIn? here p = some x ↔ p = here ++ [x] := by
  unfold nameIn?
  constructor
  · intro h
    split at h
    · split at h
      · next hp =>
        rw [← Option.some.inj h]
        exact hp
      · cases h
    · cases h
  · rintro rfl
    simp

/-- The names right in a directory. -/
def namesIn (d : Disk) (here : Place) : List String := d.nodes.keys.filterMap (nameIn? here)

theorem list_eq {d : Disk} {path : List Char} {here : Place} {t : Int}
    (h : d.find path = .ok (here, .directory t)) : d.list path = .ok (d.namesIn here) := by
  rw [list, h]
  rfl

theorem mem_namesIn {d : Disk} {here : Place} {x : String} :
    x ∈ d.namesIn here ↔ ∃ n, d.nodes.get? (here ++ [x]) = some n := by
  simp only [namesIn, List.mem_filterMap, nameIn?_eq_some, exists_eq_right]
  exact Table.mem_keys_iff

theorem nodup_namesIn (d : Disk) (here : Place) : (d.namesIn here).Nodup := by
  have hkeys : d.nodes.keys.Nodup := by
    refine List.Pairwise.imp (fun {a b} (h : a < b) heq => ?_)
      (List.pairwise_map.2 d.nodes.ascending)
    exact Std.lt_irrefl (heq ▸ h)
  refine List.Pairwise.filterMap _ (fun a b hab x hx y hy heq => ?_) hkeys
  rw [nameIn?_eq_some.1 hx, nameIn?_eq_some.1 hy, heq] at hab
  exact hab rfl

/-! ## Writing to one file -/

theorem ordinary_of_file {d : Disk} {p : Place} {content : List UInt8} {t : Int}
    (h : d.node? p = some (.file content t)) : Ordinary p := by
  unfold node? at h
  split at h
  · cases h
  · next hp =>
    split at h
    · cases h
    · next hdev => exact ⟨hp, hdev⟩

theorem Ordinary.node?_put {p : Place} (ho : Ordinary p) (d : Disk) (n : Node) (q : Place) :
    (d.put p n).node? q = if q = p then some n else d.node? q := by
  split
  · next hq => rw [hq, ho.node?_eq, get?_put, if_pos rfl]
  · next hq => exact node?_congr (by rw [get?_put, if_neg hq])

/-- No directory is lost if a file is written where no directory is. -/
theorem Ordinary.keepsDirectories_put {p : Place} (ho : Ordinary p) {d : Disk}
    (hp : ∀ t, d.node? p ≠ some (.directory t)) (n : Node) : KeepsDirectories d (d.put p n) := by
  intro q t hq
  rw [ho.node?_put, if_neg, hq]
  rintro rfl
  exact hp t hq

/-- What a name in a directory leads to. -/
theorem resolve_named {d : Disk} {path : List Char} {here : Place} {x : String}
    (hg : d.goal path = .ok (.named here x)) : d.resolve path =
      if longestName < x.utf8ByteSize then .error .nameTooLong else .ok (here ++ [x]) := by
  obtain ⟨-, -, hx, -⟩ := goal_named hg
  simp only [resolve, hg, bind, Except.bind, entry, if_neg hx.ne_here, if_neg hx.ne_above]

/-- A file is read as before if another one has been written. -/
theorem read_of_keeps {d d' : Disk} (h : KeepsDirectories d d') {path : List Char} {here : Place}
    {x : String} (hg : d.goal path = .ok (.named here x))
    (hx : d'.node? (here ++ [x]) = d.node? (here ++ [x])) : d'.read path = d.read path := by
  have hfind : d'.find path = d.find path := by
    simp only [find, resolve_named hg, resolve_named (goal_of_keeps h hg), bind, Except.bind]
    split
    · rfl
    · next q hq =>
      split at hq
      · cases hq
      · rw [← Except.ok.inj hq, hx]
  rw [read, read, hfind]

theorem mem_namesIn_put {d : Disk} {here : Place} {x y : String} {n : Node} :
    y ∈ (d.put (here ++ [x]) n).namesIn here ↔ y = x ∨ y ∈ d.namesIn here := by
  rw [mem_namesIn, mem_namesIn]
  by_cases hy : y = x
  · simp [hy]
  · have hne : here ++ [y] ≠ here ++ [x] := fun he => hy (name_inj he)
    simp [hy]

end Reachability.Disk
