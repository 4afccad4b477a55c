import Mathlib.Data.List.Induction
import Mathlib.Data.List.Infix
import Reachability.Proofs.Disk.Attempt
import Reachability.Proofs.Disk.Tree

set_option autoImplicit false

/-! # Disks that are trees

On a disk that is a tree, all that is there has a name and is in a directory (`Grounded`); so it is
on every disk that is made by putting files and directories into directories (`Grounded.put`). Then
no path leads past a file, and a path that leads to one ends with its name. Accesses that change
files only leave all directories where they are (`SameDirectories`), so that every path leads to the
same place as before. -/

namespace Reachability.Disk

open Reachability.Disk.Path (IsName)

/-- A node has a name and is in a directory, and it is no device. -/
structure Housed (d : Disk) (here : Place) (x : String) (n : Node) : Prop where
  name : IsName x
  plain : ∀ k, n ≠ .device k
  directory : ∃ t, d.node? here = some (.directory t)

/-- Everything on a disk has a name and is in a directory. -/
def Grounded (d : Disk) : Prop :=
  ∀ here x n, Ordinary (here ++ [x]) → d.node? (here ++ [x]) = some n → Housed d here x n

theorem grounded_empty : Grounded ⟨.empty⟩ := by
  intro here x n hordinary hn
  rw [hordinary.node?_eq, Table.get?_empty] at hn
  cases hn

/-- A disk stays a tree when a file or a directory is put into a directory, under a free name. -/
theorem Grounded.put {d : Disk} (g : Grounded d) {here : Place} {x : String} (hx : IsName x)
    (hhere : ∃ t, d.node? here = some (.directory t)) (hfree : d.node? (here ++ [x]) = none)
    {n : Node} (hplain : ∀ k, n ≠ .device k) : Grounded (d.put (here ++ [x]) n) := by
  have hput := (ordinary_of_node?_eq_none hfree).node?_put d n
  have hkept : ∀ {p : Place}, (∃ t, d.node? p = some (.directory t)) →
      ∃ t, (d.put (here ++ [x]) n).node? p = some (.directory t) := by
    rintro p ⟨t, ht⟩
    refine ⟨t, ?_⟩
    rw [hput, if_neg, ht]
    rintro rfl
    cases hfree.symm.trans ht
  intro here' x' m hordinary hm
  rw [hput] at hm
  split at hm
  · next hnew =>
    obtain ⟨rfl, hx'⟩ := List.append_inj' hnew rfl
    obtain rfl := List.singleton_inj.1 hx'
    obtain rfl := Option.some.inj hm
    exact ⟨hx, hplain, hkept hhere⟩
  · obtain ⟨hname, hplain', hdirectory⟩ := g here' x' m hordinary hm
    exact ⟨hname, hplain', hkept hdirectory⟩

/-! ## Places below others -/

theorem isAround_append (p q : Place) : isAround (p ++ q) = (isAround p && isAround q) :=
  List.all_append

/-- The places that every disk has, apart from those around the working directory. -/
def fixtures : List Place := standing ++ Device.all.map fun k => devices ++ [k.name]

theorem ordinary_iff {p : Place} : Ordinary p ↔ isAround p = false ∧ p ∉ fixtures := by
  have hdevice : device? p = none ↔ p ∉ Device.all.map fun k => devices ++ [k.name] := by
    simp only [device?, List.find?_eq_none, beq_iff_eq, List.mem_map, not_exists, not_and]
    exact forall₂_congr fun k _ => not_congr eq_comm
  rw [Ordinary, hdevice, not_or, Bool.not_eq_true, fixtures, List.mem_append, not_or, and_assoc]

/-- The places that every disk has are not in others. -/
theorem Ordinary.append {p : Place} (h : Ordinary p) (rest : Place) : Ordinary (p ++ rest) := by
  have hfront : ∀ q ∈ fixtures, ∀ front ∈ q.inits, isAround front = true ∨ front ∈ fixtures := by
    decide +kernel
  rw [ordinary_iff] at h ⊢
  refine ⟨?_, fun hmem => ?_⟩
  · rw [isAround_append, h.1, Bool.false_and]
  · have hinits : p ∈ (p ++ rest).inits := (List.mem_inits ..).2 (List.prefix_append ..)
    rcases hfront _ hmem p hinits with haround | hp
    · cases h.1.symm.trans haround
    · exact h.2 hp

/-- A name with a dash is not one of those that every disk has. -/
theorem ordinary_of_dash {here : Place} {x : String} (h : '-' ∈ x.toList) :
    Ordinary (here ++ [x]) := by
  have hlast : ∀ q ∈ fixtures, ∀ y ∈ q.getLast?, '-' ∉ y.toList := by decide +kernel
  refine ordinary_iff.2 ⟨?_, fun hmem => hlast _ hmem x ?_ h⟩
  · rw [isAround_append, Bool.and_eq_false_iff]
    right
    cases hup : isAround [x] with
    | false => rfl
    | true =>
        obtain rfl : x = ".." := by simpa [isAround] using hup
        exact absurd h (by decide)
  · rw [List.getLast?_concat]
    rfl

theorem Ordinary.eq_concat {p : Place} (h : Ordinary p) : ∃ here x, p = here ++ [x] := by
  rcases List.eq_nil_or_concat p with rfl | ⟨here, x, rfl⟩
  · exact absurd (.inl rfl) h.1
  · exact ⟨here, x, List.concat_eq_append⟩

/-- The directory that a directory is in. -/
theorem Grounded.above {d : Disk} (g : Grounded d) {here : Place} {t : Int}
    (h : d.node? here = some (.directory t)) : ∃ t, d.node? (above here) = some (.directory t) := by
  have haround : ∀ {p : Place}, isAround p = true → ∃ t, d.node? p = some (.directory t) :=
    fun hp => ⟨0, if_pos (.inl hp)⟩
  have hstanding : ∀ {p : Place}, p ∈ standing → ∃ t, d.node? p = some (.directory t) :=
    fun hp => ⟨0, if_pos (.inr hp)⟩
  unfold Disk.above
  split
  · exact ⟨t, h⟩
  · next hroot =>
    split
    · next hup =>
      refine haround ?_
      rw [isAround_append, hup]
      rfl
    · next hup =>
      by_cases hplace : here ∈ standing
      · have hcases : here = ["/", "dev"] ∨ here = ["/", "tmp"] := by
          simpa [standing, devices, hroot] using hplace
        rcases hcases with rfl | rfl <;> exact hstanding (by decide)
      · have hordinary : Ordinary here := by
          refine ⟨not_or.2 ⟨hup, hplace⟩, ?_⟩
          cases hdevice : device? here with
          | none => rfl
          | some k =>
              rw [node?, if_neg (not_or.2 ⟨hup, hplace⟩), hdevice] at h
              cases h
        obtain ⟨front, x, rfl⟩ := hordinary.eq_concat
        rw [List.dropLast_concat]
        exact (g front x _ hordinary h).directory

/-- Nothing is below what is no directory. -/
theorem Grounded.nothing_below {d : Disk} (g : Grounded d) {p : Place} (hp : Ordinary p)
    (hnot : ∀ t, d.node? p ≠ some (.directory t)) (x : String) (rest : Place) :
    d.node? (p ++ x :: rest) = none := by
  -- On the names below the place, the last one last.
  induction rest using List.reverseRecOn generalizing x with
  | nil =>
      refine Option.eq_none_iff_forall_ne_some.2 fun n hn => ?_
      obtain ⟨t, ht⟩ := (g p x n (hp.append [x]) hn).directory
      exact hnot t ht
  | append_singleton rest y ih =>
      refine Option.eq_none_iff_forall_ne_some.2 fun n hn => ?_
      have hsplit : p ++ x :: (rest ++ [y]) = (p ++ x :: rest) ++ [y] := by simp
      rw [hsplit] at hn
      obtain ⟨t, ht⟩ := (g _ y n ((hp.append _).append [y]) hn).directory
      rw [ih x] at ht
      cases ht

/-! ## Paths that lead to files -/

/-- What is known of a path that leads somewhere. -/
theorem goal_eq_ok {d : Disk} {path : List Char} {goal : Goal} (h : d.goal path = .ok goal) :
    path ≠ [] ∧ ¬ longestPath < (String.ofList path).utf8ByteSize ∧
      ∃ here, d.walk (start path) (Path.names path).dropLast = .ok here := by
  unfold Disk.goal at h
  split at h
  · cases h
  · next hempty =>
    split at h
    · cases h
    · next hsize =>
      refine ⟨by simpa using hempty, hsize, ?_⟩
      cases hw : d.walk (start path) (Path.names path).dropLast with
      | error f =>
          unfold start at hw
          simp only [hw, bind, Except.bind] at h
          cases h
      | ok here => exact ⟨here, rfl⟩

/-- A path without a last name leads to a directory. -/
theorem Grounded.directory_of_unnamed {d : Disk} (g : Grounded d) {path : List Char} {p : Place}
    (h : d.goal path = .ok (.unnamed p)) : ∃ t, d.node? p = some (.directory t) := by
  obtain ⟨hne, hsize, here, hw⟩ := goal_eq_ok h
  obtain ⟨t, ht⟩ := walk_directory hw (start_directory d path)
  rcases List.eq_nil_or_concat (Path.names path) with hnil | ⟨ns, x, hns⟩
  · have hresolve : d.resolve path = .ok p := by simp only [resolve, h, bind, Except.bind]
    have hhere : d.walk (start path) (Path.names path) = .ok here := by
      rw [hnil] at hw ⊢
      exact hw
    rw [resolve_of_walk hne hsize hhere] at hresolve
    exact ⟨t, Except.ok.inj hresolve ▸ ht⟩
  · rw [List.concat_eq_append] at hns
    rw [hns, List.dropLast_concat] at hw
    rw [goal_eq hne hsize hns hw] at h
    split at h
    · next hdots =>
      rcases hdots with rfl | rfl
      · cases h
        exact ⟨t, ht⟩
      · cases h
        exact g.above ht
    · cases h

theorem find_eq_ok {d : Disk} {path : List Char} {p : Place} {n : Node}
    (h : d.find path = .ok (p, n)) : d.resolve path = .ok p ∧ d.node? p = some n ∧
      ((∃ t, n = .directory t) ∨ wantsDirectory path = false) := by
  cases hr : d.resolve path with
  | error f =>
      rw [find_of_resolve_error hr] at h
      cases h
  | ok place =>
      simp only [find, hr, bind, Except.bind] at h
      split at h
      · cases h
      · next t ht =>
        cases h
        exact ⟨rfl, ht, .inl ⟨t, rfl⟩⟩
      · next node hnot hn =>
        split at h
        · cases h
        · next hwants =>
          cases h
          exact ⟨rfl, hn, .inr (by simpa using hwants)⟩

theorem find_eq {d : Disk} {path : List Char} {p : Place} {n : Node} (hr : d.resolve path = .ok p)
    (hn : d.node? p = some n) (hf : wantsDirectory path = false) : d.find path = .ok (p, n) := by
  simp only [find, hr, hn, bind, Except.bind]
  cases n with
  | directory t => rfl
  | file content t => simp only [hf, Bool.false_eq_true, if_false]
  | device k => simp only [hf, Bool.false_eq_true, if_false]

/-- There is nothing where a path leads to at which nothing is found. -/
theorem free_of_stat {d : Disk} {path : List Char} {p : Place} (hr : d.resolve path = .ok p)
    (hf : wantsDirectory path = false) (h : (d.stat path).isOk = false) : d.node? p = none := by
  cases hn : d.node? p with
  | none => rfl
  | some n =>
      rw [stat, find_eq hr hn hf] at h
      cases h

theorem stat_eq_ok {d : Disk} {path : List Char} {b : Stat} (h : d.stat path = .ok b) :
    ∃ p n, d.find path = .ok (p, n) ∧ b = n.stat := by
  unfold stat at h
  cases hf : d.find path with
  | error f =>
      rw [hf] at h
      cases h
  | ok found =>
      rw [hf] at h
      exact ⟨found.1, found.2, rfl, (Except.ok.inj h).symm⟩

theorem list_eq_ok {d : Disk} {path : List Char} {names : List String}
    (h : d.list path = .ok names) :
    ∃ here t, d.find path = .ok (here, .directory t) ∧ names = d.namesIn here := by
  cases hf : d.find path with
  | error f =>
      simp only [list, hf, bind, Except.bind] at h
      cases h
  | ok found =>
      obtain ⟨here, n⟩ := found
      cases n with
      | directory t =>
          rw [list_eq hf] at h
          exact ⟨here, t, rfl, (Except.ok.inj h).symm⟩
      | file content t =>
          simp only [list, hf, bind, Except.bind] at h
          cases h
      | device k =>
          simp only [list, hf, bind, Except.bind] at h
          cases h

/-- A path that ends with a name leads to a place in a directory. -/
theorem place_of_goal {d : Disk} {path : List Char} {here p : Place} {x : String}
    (hg : d.goal path = .ok (.named here x)) (h : d.resolve path = .ok p) :
    p = here ++ [x] ∧ IsName x ∧ ∃ t, d.node? here = some (.directory t) := by
  obtain ⟨-, -, hx, ns, -, hw⟩ := goal_named hg
  refine ⟨?_, hx, walk_directory hw (start_directory d path)⟩
  rw [resolve_named hg] at h
  split at h
  · cases h
  · exact (Except.ok.inj h).symm

theorem Reaches.parent {d : Disk} {path : List Char} {p : Place} (h : Reaches d path p) :
    ∃ here x, d.goal path = .ok (.named here x) ∧ p = here ++ [x] ∧ IsName x ∧
      ∃ t, d.node? here = some (.directory t) := by
  obtain ⟨here, x, hg⟩ := h.goal
  exact ⟨here, x, hg, place_of_goal hg h.resolve⟩

/-- A path that leads to a file ends with its name. -/
theorem Grounded.reaches_of_find {d : Disk} (g : Grounded d) {path : List Char} {p : Place}
    {content : List UInt8} {t : Int} (h : d.find path = .ok (p, .file content t)) :
    Reaches d path p := by
  obtain ⟨hresolve, hnode, hfile⟩ := find_eq_ok h
  refine ⟨?_, hresolve, hfile.resolve_left nofun, ordinary_of_file hnode⟩
  cases hg : d.goal path with
  | error f =>
      simp only [resolve, hg, bind, Except.bind] at hresolve
      cases hresolve
  | ok goal =>
      cases goal with
      | named here x => exact ⟨here, x, rfl⟩
      | unnamed place =>
          simp only [resolve, hg, bind, Except.bind] at hresolve
          obtain ⟨t', ht'⟩ := g.directory_of_unnamed hg
          rw [Except.ok.inj hresolve, hnode] at ht'
          cases ht'

/-! ## The same directories -/

/-- Two disks have the same directories. -/
def SameDirectories (d d' : Disk) : Prop :=
  ∀ p t, d'.node? p = some (.directory t) ↔ d.node? p = some (.directory t)

namespace SameDirectories

variable {d d' d'' : Disk}

theorem refl (d : Disk) : SameDirectories d d := fun _ _ => Iff.rfl

theorem symm (h : SameDirectories d d') : SameDirectories d' d := fun p t => (h p t).symm

theorem trans (h : SameDirectories d d') (h' : SameDirectories d' d'') : SameDirectories d d'' :=
  fun p t => (h' p t).trans (h p t)

theorem keeps (h : SameDirectories d d') : KeepsDirectories d d' := fun p t => (h p t).2

theorem goal_eq_of_ok (h : SameDirectories d d') {path : List Char} {goal : Goal}
    (hg : d.goal path = .ok goal) : d'.goal path = .ok goal := by
  obtain ⟨hne, hsize, here, hw⟩ := Disk.goal_eq_ok hg
  have hw' := walk_of_keeps h.keeps hw
  have hempty : path.isEmpty = false := by simpa using hne
  unfold start at hw hw'
  simp only [Disk.goal, hempty, Bool.false_eq_true, if_false, if_neg hsize, hw, hw', bind,
    Except.bind] at hg ⊢
  exact hg

theorem resolve_eq_ok (h : SameDirectories d d') {path : List Char} {p : Place}
    (hr : d.resolve path = .ok p) : d'.resolve path = .ok p := by
  unfold Disk.resolve at hr ⊢
  cases hg : d.goal path with
  | error f =>
      rw [hg] at hr
      cases hr
  | ok goal =>
      rw [hg] at hr
      rw [h.goal_eq_of_ok hg]
      exact hr

theorem resolve_iff (h : SameDirectories d d') {path : List Char} {p : Place} :
    d'.resolve path = .ok p ↔ d.resolve path = .ok p :=
  ⟨h.symm.resolve_eq_ok, h.resolve_eq_ok⟩

theorem reaches (h : SameDirectories d d') {path : List Char} {p : Place}
    (hr : Reaches d path p) : Reaches d' path p where
  goal := by
    obtain ⟨here, x, hg⟩ := hr.goal
    exact ⟨here, x, h.goal_eq_of_ok hg⟩
  resolve := h.resolve_eq_ok hr.resolve
  file := hr.file
  ordinary := hr.ordinary

end SameDirectories

/-- A device is on every disk. -/
theorem Grounded.device {d : Disk} (g : Grounded d) {p : Place} {k : Device}
    (h : d.node? p = some (.device k)) (d' : Disk) : d'.node? p = some (.device k) := by
  by_cases hp : Ordinary p
  · obtain ⟨here, x, rfl⟩ := hp.eq_concat
    exact absurd rfl ((g here x _ hp h).plain k)
  · unfold node? at h ⊢
    split at h
    · cases h
    · next hplace =>
      rw [if_neg hplace]
      cases hdevice : device? p with
      | none => exact absurd ⟨hplace, hdevice⟩ hp
      | some k' =>
          rw [hdevice] at h
          exact h

/-! ## Changes of single files -/

/-- Nothing has changed but what is at some places, and there is no directory at these. -/
structure Alters (places : Place → Prop) (d d' : Disk) : Prop where
  others : ∀ p, ¬ places p → d'.node? p = d.node? p
  before : ∀ p t, places p → d.node? p ≠ some (.directory t)
  after : ∀ p t, places p → d'.node? p ≠ some (.directory t)
  housed : ∀ p n, places p → d'.node? p = some n → ∃ here x, p = here ++ [x] ∧ Housed d here x n

namespace Alters

variable {places : Place → Prop} {d d' : Disk}

theorem sameDirectories (h : Alters places d d') : SameDirectories d d' := by
  intro p t
  by_cases hp : places p
  · exact iff_of_false (h.after p t hp) (h.before p t hp)
  · rw [h.others p hp]

theorem grounded (h : Alters places d d') (g : Grounded d) : Grounded d' := by
  intro here x n hordinary hn
  obtain ⟨hx, hplain, t, ht⟩ : Housed d here x n := by
    by_cases hp : places (here ++ [x])
    · obtain ⟨here', x', heq, hhoused⟩ := h.housed _ n hp hn
      obtain ⟨rfl, hx'⟩ := List.append_inj' heq rfl
      obtain rfl := List.singleton_inj.1 hx'
      exact hhoused
    · rw [h.others _ hp] at hn
      exact g here x n hordinary hn
  exact ⟨hx, hplain, t, (h.sameDirectories here t).2 ht⟩

end Alters

/-- A file that is put where a path leads, if no directory is there, is a change of one file. -/
theorem Reaches.alters_put {d : Disk} {path : List Char} {p : Place} (h : Reaches d path p)
    (hnot : ∀ t, d.node? p ≠ some (.directory t)) (content : List UInt8) (t : Int) :
    Alters (· = p) d (d.put p (.file content t)) := by
  have hput := h.ordinary.node?_put d (.file content t)
  refine ⟨fun q hq => by rw [hput, if_neg hq], ?_, ?_, ?_⟩
  · rintro q t' rfl
    exact hnot t'
  · rintro q t' rfl hdirectory
    rw [hput, if_pos rfl] at hdirectory
    cases hdirectory
  · rintro q n rfl hn
    rw [hput, if_pos rfl] at hn
    cases hn
    obtain ⟨here, x, -, heq, hx, hhere⟩ := h.parent
    exact ⟨here, x, heq, hx, nofun, hhere⟩

/-- A file that is removed is gone, and nothing else has changed. -/
theorem Reaches.alters_remove {d d' : Disk} {path : List Char} {p : Place} (h : Reaches d path p)
    (g : Grounded d) (hremove : d.remove path = .ok d') :
    (∃ content t, d.node? p = some (.file content t)) ∧ d'.node? p = none ∧
      Alters (· = p) d d' := by
  cases hf : d.find path with
  | error f =>
      simp only [remove, hf, bind, Except.bind] at hremove
      cases hremove
  | ok found =>
      obtain ⟨q, node⟩ := found
      obtain ⟨hresolve, hnode, -⟩ := find_eq_ok hf
      obtain rfl := Except.ok.inj (h.resolve.symm.trans hresolve)
      simp only [remove, hf, bind, Except.bind] at hremove
      cases node with
      | directory t => cases hremove
      | device k =>
          obtain ⟨here, x, -, rfl, -⟩ := h.parent
          exact absurd rfl ((g here x _ h.ordinary hnode).plain k)
      | file content t =>
          cases hremove
          have hgone : Disk.node? ⟨d.nodes.erase p⟩ p = none := by
            rw [h.ordinary.node?_eq, Table.get?_erase, if_pos rfl]
          refine ⟨⟨content, t, hnode⟩, hgone, fun q hq => node?_congr ?_, ?_, ?_, ?_⟩
          · rw [Table.get?_erase, if_neg hq]
          · rintro q t' rfl hdirectory
            cases hnode.symm.trans hdirectory
          · rintro q t' rfl hdirectory
            cases hgone.symm.trans hdirectory
          · rintro q n rfl hn
            cases hgone.symm.trans hn

/-- Whether an access changes nothing but what one path leads to. -/
def Request.WritesAt (path : List Char) : Request → Prop
  | .openAppend path' => path' = path
  | .append path' _ => path' = path
  | .truncate path' _ => path' = path
  | .rename .. => False
  | .remove _ => False
  | .write .. => False
  | _ => True

theorem Request.IsReading.writesAt {r : Request} (h : r.IsReading) (path : List Char) :
    r.WritesAt path := by
  cases r <;> trivial

section Writes

variable {d d' : Disk} {now : Int} {path : List Char}

/-- The file that a path leads to has changed, if any has. -/
def WritesFile (path : List Char) (d d' : Disk) : Prop :=
  d' = d ∨ ∃ p, Reaches d path p ∧ Alters (· = p) d d'

theorem writesFile_put (g : Grounded d) {p : Place} {content : List UInt8} {t : Int}
    (h : d.find path = .ok (p, .file content t)) (content' : List UInt8) (t' : Int) :
    WritesFile path d (d.put p (.file content' t')) := by
  have hreaches := g.reaches_of_find h
  refine .inr ⟨p, hreaches, hreaches.alters_put (fun t'' ht => ?_) content' t'⟩
  rw [(find_eq_ok h).2.1] at ht
  cases ht

theorem writesFile_append (g : Grounded d) {bs : List UInt8} (h : d.append now path bs = .ok d') :
    WritesFile path d d' := by
  cases hf : d.find path with
  | error f =>
      simp only [append, hf, bind, Except.bind] at h
      cases h
  | ok found =>
      obtain ⟨p, node⟩ := found
      simp only [append, hf, bind, Except.bind] at h
      cases node with
      | file content t =>
          cases h
          exact writesFile_put g hf _ _
      | directory t => cases h
      | device k =>
          replace h : (k.accept bs).map (fun _ => d) = .ok d' := h
          cases ha : k.accept bs with
          | error f =>
              rw [ha] at h
              cases h
          | ok u =>
              rw [ha] at h
              cases h
              exact .inl rfl

theorem writesFile_truncate (g : Grounded d) {n : Nat} (h : d.truncate now path n = .ok d') :
    WritesFile path d d' := by
  cases hf : d.find path with
  | error f =>
      simp only [truncate, hf, bind, Except.bind] at h
      cases h
  | ok found =>
      obtain ⟨p, node⟩ := found
      simp only [truncate, hf, bind, Except.bind] at h
      cases node with
      | file content t =>
          cases h
          exact writesFile_put g hf _ _
      | _ => cases h

/-- A path under which a file can be made leads to its place. -/
theorem reaches_of_filePlace {p : Place} (h : d.filePlace path = .ok p)
    (hnone : d.node? p = none) : Reaches d path p := by
  unfold filePlace at h
  cases hg : d.goal path with
  | error f =>
      rw [hg] at h
      cases h
  | ok goal =>
      rw [hg] at h
      cases goal with
      | unnamed place => cases h
      | named here x =>
          simp only [bind, Except.bind] at h
          split at h
          · cases h
          · next hwants =>
            cases he : entry here x with
            | error f =>
                rw [he] at h
                cases h
            | ok place =>
                simp only [he] at h
                split at h
                · cases h
                · obtain rfl := Except.ok.inj h
                  refine ⟨⟨here, x, hg⟩, ?_, by simpa using hwants,
                    ordinary_of_node?_eq_none hnone⟩
                  simp only [resolve, hg, he, bind, Except.bind]

theorem writesFile_openAppend {n : Nat} (h : d.openAppend now path = .ok (n, d')) :
    WritesFile path d d' := by
  cases hp : d.filePlace path with
  | error f =>
      simp only [openAppend, hp, bind, Except.bind] at h
      cases h
  | ok p =>
      simp only [openAppend, hp, bind, Except.bind] at h
      split at h
      · cases h
        exact .inl rfl
      · next hnone =>
        cases h
        have hreaches := reaches_of_filePlace hp hnone
        refine .inr ⟨p, hreaches, hreaches.alters_put (fun t ht => ?_) _ _⟩
        cases hnone.symm.trans ht

/-- An access that writes at a path changes only the file there, whether it fails or not. -/
theorem Tried.writesFile {P : Disk → Request → Prop} {r : Request} {a : r.Answer}
    {gone : List (List Char)} (h : Tried P now d r a gone d') (g : Grounded d)
    (hr : r.WritesAt path) : WritesFile path d d' := by
  have hchanged : ∀ {x : Except Fault Disk} {y : Except Fault Unit},
      (∀ d', x = .ok d' → WritesFile path d d') → changed d x = (y, d') → WritesFile path d d' := by
    intro x y hx hy
    cases x with
    | ok d₁ =>
        cases hy
        exact hx _ rfl
    | error f =>
        cases hy
        exact .inl rfl
  cases h with
  | performed h =>
      cases r with
      | openAppend path' =>
          obtain rfl := hr
          simp only [perform] at h
          split at h
          · next hopen =>
            cases h
            exact writesFile_openAppend hopen
          · cases h
            exact .inl rfl
      | append path' bs =>
          obtain rfl := hr
          exact hchanged (fun _ => writesFile_append g) h
      | truncate path' n =>
          obtain rfl := hr
          exact hchanged (fun _ => writesFile_truncate g) h
      | rename => exact hr.elim
      | remove => exact hr.elim
      | write => exact hr.elim
      | stat | read | list | flush | sync => exact .inl (Prod.mk.inj h).2.symm
  | failed hfail f h =>
      cases h with
      | nothing => exact .inl rfl
      | opened hopen =>
          obtain rfl := hr
          exact writesFile_openAppend hopen
      | added k happend =>
          obtain rfl := hr
          exact writesFile_append g happend

end Writes

/-- Nothing has changed but the file that a path leads to, which may be new. -/
structure Writes (path : List Char) (d d' : Disk) : Prop where
  grounded : Grounded d'
  directories : SameDirectories d d'
  others : ∀ p, ¬ Reaches d path p → d'.node? p = d.node? p

section Programs

variable {d d' d'' : Disk} {path : List Char}

theorem Writes.refl (path : List Char) (g : Grounded d) : Writes path d d :=
  ⟨g, .refl d, fun _ _ => rfl⟩

theorem Writes.trans (h : Writes path d d') (h' : Writes path d' d'') : Writes path d d'' where
  grounded := h'.grounded
  directories := h.directories.trans h'.directories
  others p hp :=
    (h'.others p fun hp' => hp (h.directories.symm.reaches hp')).trans (h.others p hp)

theorem WritesFile.writes (h : WritesFile path d d') (g : Grounded d) : Writes path d d' := by
  rcases h with rfl | ⟨p, hp, halters⟩
  · exact .refl path g
  · refine ⟨halters.grounded g, halters.sameDirectories, fun q hq => halters.others q ?_⟩
    rintro rfl
    exact hq hp

/-- A program that writes at one path only changes nothing else, whichever of its accesses fail. -/
theorem Program.Fares.writes {α : Type} {P : Disk → Request → Prop} {now : Int} {p : Program α}
    {a : α} {gone : List (List Char)} (h : Fares P now p d gone a d') (g : Grounded d)
    (hp : p.Only (Request.WritesAt path)) : Writes path d d' := by
  induction h with
  | done a d => exact .refl path g
  | access htried h ih =>
      have hfirst := (htried.writesFile g hp.1).writes g
      exact hfirst.trans (ih hfirst.grounded (hp.2 _))

end Programs

/-! ## Moving a file -/

theorem rename_eq_ok {d d' : Disk} {old new : List Char} (h : d.rename old new = .ok d') :
    (∃ p n, d.find old = .ok (p, n)) ∧ (∃ here x, d.goal new = .ok (.named here x)) ∧
      ∃ q, d.resolve new = .ok q := by
  cases hold : d.goal old with
  | error f =>
      simp only [rename, hold, bind, Except.bind] at h
      cases h
  | ok goal =>
    cases hnew : d.goal new with
    | error f =>
        simp only [rename, hold, hnew, bind, Except.bind] at h
        cases h
    | ok goal' =>
      cases goal with
      | unnamed p =>
          simp only [rename, hold, hnew, bind, Except.bind] at h
          cases h
      | named front name =>
        cases goal' with
        | unnamed p =>
            simp only [rename, hold, hnew, bind, Except.bind] at h
            cases h
        | named here x =>
            cases hf : d.find old with
            | error f =>
                simp only [rename, hold, hnew, hf, bind, Except.bind] at h
                cases h
            | ok found =>
              cases hr : d.resolve new with
              | error f =>
                  simp only [rename, hold, hnew, hf, hr, bind, Except.bind] at h
                  cases h
              | ok q => exact ⟨⟨found.1, found.2, rfl⟩, ⟨here, x, rfl⟩, q, rfl⟩

/-- A file that is moved to a free place is there afterwards as it was, and nothing else has
    changed. -/
theorem Grounded.alters_rename {d d' : Disk} (g : Grounded d) {old new : List Char} {p q : Place}
    (ho : Reaches d old p) (hq : Reaches d new q) {content : List UInt8} {t : Int}
    (hn : d.node? p = some (.file content t)) (hfree : d.node? q = none)
    (h : d.rename old new = .ok d') :
    (∀ r, d'.node? r = if r = q then some (.file content t) else if r = p then none
      else d.node? r) ∧ Alters (fun r => r = q ∨ r = p) d d' := by
  have hbelow : ∀ x rest, d.nodes.get? (p ++ x :: rest) = none := by
    intro x rest
    rw [← (ho.ordinary.append _).node?_eq]
    refine g.nothing_below ho.ordinary (fun t' ht => ?_) x rest
    cases hn.symm.trans ht
  have hget : d.nodes.get? p = some (.file content t) := by rw [← ho.ordinary.node?_eq, hn]
  have hnone := get?_eq_none_of_node?_eq_none hfree
  obtain ⟨d₁, hrename, hnodes⟩ := rename_file ho hq hget hnone hbelow
  obtain rfl := Except.ok.inj (hrename.symm.trans h)
  have hne : p ≠ q := by
    rintro rfl
    cases hn.symm.trans hfree
  have hmoved : ∀ r, d₁.node? r = if r = q then some (.file content t) else if r = p then none
      else d.node? r := by
    intro r
    by_cases hrq : r = q
    · rw [if_pos hrq, hrq, hq.ordinary.node?_eq, hnodes, if_pos rfl]
    · by_cases hrp : r = p
      · rw [if_neg hrq, if_pos hrp, hrp, ho.ordinary.node?_eq, hnodes, if_neg hne, if_pos rfl]
      · rw [if_neg hrq, if_neg hrp]
        refine node?_congr ?_
        rw [hnodes, if_neg hrq, if_neg hrp]
  refine ⟨hmoved, fun r hr => ?_, ?_, ?_, ?_⟩
  · rw [not_or] at hr
    rw [hmoved, if_neg hr.1, if_neg hr.2]
  · rintro r t' (rfl | rfl) hdirectory
    · cases hfree.symm.trans hdirectory
    · cases hn.symm.trans hdirectory
  · rintro r t' (rfl | rfl) hdirectory
    · rw [hmoved, if_pos rfl] at hdirectory
      cases hdirectory
    · rw [hmoved, if_neg hne, if_pos rfl] at hdirectory
      cases hdirectory
  · rintro r n (rfl | rfl) hr
    · rw [hmoved, if_pos rfl] at hr
      cases hr
      obtain ⟨here, x, -, heq, hx, hdirectory⟩ := hq.parent
      exact ⟨here, x, heq, hx, nofun, hdirectory⟩
    · rw [hmoved, if_neg hne, if_pos rfl] at hr
      cases hr

/-! ## Names in a directory -/

/-- The path of a name in a directory leads there, if it leads anywhere. -/
theorem resolve_join {d : Disk} {dir : List Char} {x : String} {p : Place} (hdir : dir ≠ [])
    (hx : IsName x) (h : d.resolve (Path.join dir x.toList) = .ok p) :
    ∃ here, d.resolve dir = .ok here ∧ p = here ++ [x] ∧
      d.goal (Path.join dir x.toList) = .ok (.named here x) := by
  cases hg : d.goal (Path.join dir x.toList) with
  | error f =>
      simp only [resolve, hg, bind, Except.bind] at h
      cases h
  | ok goal =>
      obtain ⟨hne, hsize, here, hw⟩ := goal_eq_ok hg
      have hnames : Path.names (Path.join dir x.toList) = Path.names dir ++ [x] :=
        Path.names_join hx
      have hstart : start (Path.join dir x.toList) = start dir := by
        unfold start
        rw [Path.head?_join hdir]
      rw [hnames, List.dropLast_concat] at hw
      have hnamed := goal_eq hne hsize hnames hw
      rw [if_neg (not_or.2 ⟨hx.ne_here, hx.ne_above⟩)] at hnamed
      have hshort : ¬ longestPath < (String.ofList dir).utf8ByteSize := by
        refine fun hlong => hsize (Nat.lt_of_lt_of_le hlong ?_)
        unfold Path.join
        split
        · rw [String.ofList_append, String.utf8ByteSize_append]
          exact Nat.le_add_right ..
        · rw [String.ofList_append, String.utf8ByteSize_append]
          exact Nat.le_add_right ..
      refine ⟨here, resolve_of_walk hdir hshort (hstart ▸ hw), ?_, by rw [← hg, hnamed]⟩
      exact (place_of_goal hnamed h).1

end Reachability.Disk
