import Reachability.Disk.Program

set_option autoImplicit false

/-! # Programs that fail or are stopped

A program need not run as the disk allows. Some of its accesses may fail, and leave behind a part of
what they should do (`Ends`); or the process is stopped between two accesses or within one
(`Stops`). Both are described for a program that goes on with another by what they are for the
two. -/

namespace Reachability.Disk

/-! ## Kinds of accesses -/

/-- The bytes that an access has added to a file. -/
def Request.written : (r : Request) → r.Answer → List UInt8
  | .append _ bs, .ok _ => bs
  | _, _ => []

/-- Whether an access leaves the disk as it is. -/
def Request.IsReading : Request → Prop
  | .stat _ => True
  | .read _ => True
  | .list _ => True
  | .flush _ => True
  | .sync _ => True
  | _ => False

/-- Whether an access adds no bytes to a file. -/
def Request.IsSilent : Request → Prop
  | .append .. => False
  | _ => True

theorem Request.IsReading.isSilent {r : Request} (h : r.IsReading) : r.IsSilent := by
  cases r <;> trivial

theorem Request.IsReading.perform_eq {r : Request} (h : r.IsReading) (now : Int) (d : Disk) :
    (perform now d r).2 = d := by
  cases r <;> first | rfl | exact False.elim h

theorem Request.IsSilent.written_eq {r : Request} (h : r.IsSilent) (a : r.Answer) :
    r.written a = [] := by
  cases r <;> first | rfl | exact False.elim h

/-- What may be on the disk, and which bytes have been added to a file, when an access was begun
    and not finished. -/
inductive Partly (now : Int) (d : Disk) : Request → List UInt8 → Disk → Prop where
  | nothing (r : Request) : Partly now d r [] d
  | opened {path : List Char} {n : Nat} {d' : Disk} (h : d.openAppend now path = .ok (n, d')) :
      Partly now d (.openAppend path) [] d'
  | added {path : List Char} {bs : List UInt8} {d' : Disk} (k : Nat)
      (h : d.append now path (bs.take k) = .ok d') :
      Partly now d (.append path bs) (bs.take k) d'

theorem Partly.of_isReading {now : Int} {d d' : Disk} {r : Request} {bs : List UInt8}
    (h : Partly now d r bs d') (hr : r.IsReading) : bs = [] ∧ d' = d := by
  cases h with
  | nothing => exact ⟨rfl, rfl⟩
  | opened => exact False.elim hr
  | added => exact False.elim hr

theorem Partly.of_isSilent {now : Int} {d d' : Disk} {r : Request} {bs : List UInt8}
    (h : Partly now d r bs d') (hr : r.IsSilent) : bs = [] := by
  cases h with
  | nothing => rfl
  | opened => rfl
  | added => exact False.elim hr

namespace Program

variable {α β : Type} {P : Request → Prop} {now : Int} {d d' : Disk}

/-! ## Programs with accesses of one kind -/

/-- Whether all accesses of a program are of a kind, whatever the answers are. -/
def Only (P : Request → Prop) : Program α → Prop
  | done _ => True
  | access r next => P r ∧ ∀ answer, (next answer).Only P

theorem Only.bind {p : Program α} {f : α → Program β} (hp : p.Only P) (hf : ∀ a, (f a).Only P) :
    (p.bind f).Only P := by
  induction p with
  | done a => exact hf a
  | access r next ih => exact ⟨hp.1, fun answer => ih answer (hp.2 answer)⟩

theorem Only.mono {Q : Request → Prop} {p : Program α} (h : p.Only P) (hPQ : ∀ r, P r → Q r) :
    p.Only Q := by
  induction p with
  | done a => trivial
  | access r next ih => exact ⟨hPQ r h.1, fun answer => ih answer (h.2 answer)⟩

theorem Only.run_of_isReading {p : Program α} (h : p.Only Request.IsReading) (now : Int)
    (d : Disk) : (p.run now d).2 = d := by
  induction p generalizing d with
  | done a => rfl
  | access r next ih =>
      rw [run, ih _ (h.2 _)]
      exact h.1.perform_eq now d

/-- The bytes that a program adds to files. -/
def written (now : Int) : Program α → Disk → List UInt8
  | done _, _ => []
  | access r next, d =>
    r.written (perform now d r).1 ++ (next (perform now d r).1).written now (perform now d r).2

theorem Only.written_eq {p : Program α} (h : p.Only Request.IsSilent) : p.written now d = [] := by
  induction p generalizing d with
  | done a => rfl
  | access r next ih => rw [written, h.1.written_eq, ih _ (h.2 _), List.append_nil]

/-! ## Accesses that fail -/

/-- A program ends with a value and a disk, where accesses of a kind may have failed. -/
inductive Ends (P : Request → Prop) (now : Int) : Program α → Disk → α → Disk → Prop where
  | done (a : α) (d : Disk) : Ends P now (.done a) d a d
  | performed {r : Request} {next : r.Answer → Program α} {d d' : Disk} {a : α}
      (h : Ends P now (next (perform now d r).1) (perform now d r).2 a d') :
      Ends P now (.access r next) d a d'
  | failed {r : Request} {next : r.Answer → Program α} {d d' d'' : Disk} {a : α}
      {bs : List UInt8} (hr : P r) (f : Fault) (hpart : Partly now d r bs d'')
      (h : Ends P now (next (.error f)) d'' a d') :
      Ends P now (.access r next) d a d'

theorem Ends.mono {P Q : Request → Prop} {p : Program α} {a : α} (h : Ends P now p d a d')
    (hPQ : ∀ r, P r → Q r) : Ends Q now p d a d' := by
  induction h with
  | done a d => exact .done a d
  | performed h ih => exact .performed ih
  | failed hr f hpart h ih => exact .failed (hPQ _ hr) f hpart ih

theorem ends_run (P : Request → Prop) (now : Int) (p : Program α) (d : Disk) :
    Ends P now p d (p.run now d).1 (p.run now d).2 := by
  induction p generalizing d with
  | done a => exact .done a d
  | access r next ih => exact .performed (ih ..)

/-- Runs a program where accesses of a kind fail and do nothing. -/
def runWithout (fails : Request → Bool) (fault : Fault) (now : Int) : Program α → Disk → α × Disk
  | done a, d => (a, d)
  | access r next, d =>
    if fails r then (next (.error fault)).runWithout fails fault now d
    else (next (perform now d r).1).runWithout fails fault now (perform now d r).2

theorem ends_runWithout (fails : Request → Bool) (fault : Fault) (now : Int) (p : Program α)
    (d : Disk) : Ends (fails · = true) now p d (p.runWithout fails fault now d).1
      (p.runWithout fails fault now d).2 := by
  induction p generalizing d with
  | done a => exact .done a d
  | access r next ih =>
      unfold runWithout
      split
      · next hfails => exact .failed hfails fault (.nothing r) (ih _ d)
      · exact .performed (ih ..)

theorem ends_bind {p : Program α} {f : α → Program β} {b : β} :
    Ends P now (p.bind f) d b d' ↔
      ∃ a d₁, Ends P now p d a d₁ ∧ Ends P now (f a) d₁ b d' := by
  induction p generalizing d with
  | done a =>
      constructor
      · intro h
        exact ⟨a, d, .done a d, h⟩
      · rintro ⟨a', d₁, hp, hf⟩
        cases hp
        exact hf
  | access r next ih =>
      constructor
      · intro h
        cases h with
        | performed h =>
            obtain ⟨a, d₁, hp, hf⟩ := (ih _).1 h
            exact ⟨a, d₁, .performed hp, hf⟩
        | failed hr f hpart h =>
            obtain ⟨a, d₁, hp, hf⟩ := (ih _).1 h
            exact ⟨a, d₁, .failed hr f hpart hp, hf⟩
      · rintro ⟨a, d₁, hp, hf⟩
        cases hp with
        | performed hp => exact .performed ((ih _).2 ⟨a, d₁, hp, hf⟩)
        | failed hr f hpart hp => exact .failed hr f hpart ((ih _).2 ⟨a, d₁, hp, hf⟩)

/-- A program without accesses that may fail runs as the disk allows. -/
theorem Only.run_eq_of_ends {p : Program α} (h : p.Only fun r => ¬ P r) {a : α}
    (he : Ends P now p d a d') : p.run now d = (a, d') := by
  induction p generalizing d with
  | done b =>
      cases he
      rfl
  | access r next ih =>
      cases he with
      | performed he => exact ih _ (h.2 _) he
      | failed hr => exact absurd hr h.1

/-! ## Processes that are stopped -/

/-- A process is stopped while it runs a program: the bytes that the program has added to files, and
    the disk. -/
inductive Stops (now : Int) : Program α → Disk → List UInt8 → Disk → Prop where
  | here (p : Program α) (d : Disk) : Stops now p d [] d
  | during {r : Request} {next : r.Answer → Program α} {d d' : Disk} {bs : List UInt8}
      (h : Partly now d r bs d') : Stops now (.access r next) d bs d'
  | after {r : Request} {next : r.Answer → Program α} {d d' : Disk} {bs : List UInt8}
      (h : Stops now (next (perform now d r).1) (perform now d r).2 bs d') :
      Stops now (.access r next) d (r.written (perform now d r).1 ++ bs) d'

theorem stops_run (now : Int) (p : Program α) (d : Disk) :
    Stops now p d (p.written now d) (p.run now d).2 := by
  induction p generalizing d with
  | done a => exact .here _ d
  | access r next ih => exact .after (ih ..)

theorem stops_done {a : α} {bs : List UInt8} (h : Stops now (.done a) d bs d') :
    bs = [] ∧ d' = d := by
  cases h
  exact ⟨rfl, rfl⟩

/-- A process is stopped in the first of two programs or in the second. -/
theorem stops_bind {p : Program α} {f : α → Program β} {bs : List UInt8}
    (h : Stops now (p.bind f) d bs d') :
    Stops now p d bs d' ∨ ∃ bs', bs = p.written now d ++ bs' ∧
      Stops now (f (p.run now d).1) (p.run now d).2 bs' d' := by
  induction p generalizing d bs with
  | done a => exact .inr ⟨bs, rfl, h⟩
  | access r next ih =>
      cases h with
      | here => exact .inl (.here ..)
      | during h => exact .inl (.during h)
      | after h =>
          rcases ih _ h with hp | ⟨bs', rfl, hf⟩
          · exact .inl (.after hp)
          · exact .inr ⟨bs', by rw [written, List.append_assoc], hf⟩

/-- A program that only goes on with a value is stopped where its first part is. -/
theorem stops_bind_done {p : Program α} {f : α → Program β} {bs : List UInt8}
    (h : Stops now (p.bind f) d bs d') (hf : ∀ a, ∃ b, f a = .done b) : Stops now p d bs d' := by
  rcases stops_bind h with h | ⟨bs', hbs, hdone⟩
  · exact h
  · obtain ⟨b, hb⟩ := hf (p.run now d).1
    rw [hb] at hdone
    obtain ⟨hnil, hd⟩ := stops_done hdone
    rw [hbs, hnil, List.append_nil, hd]
    exact stops_run now p d

theorem Only.stops_of_isReading {p : Program α} (h : p.Only Request.IsReading) {bs : List UInt8}
    (hs : Stops now p d bs d') : bs = [] ∧ d' = d := by
  induction p generalizing d bs with
  | done a => exact stops_done hs
  | access r next ih =>
      cases hs with
      | here => exact ⟨rfl, rfl⟩
      | during hs => exact hs.of_isReading h.1
      | after hs =>
          rw [h.1.isSilent.written_eq, List.nil_append, ← h.1.perform_eq now d]
          obtain ⟨hbs, hd⟩ := ih _ (h.2 _) hs
          exact ⟨hbs, hd.trans rfl⟩

theorem Only.stops_of_isSilent {p : Program α} (h : p.Only Request.IsSilent) {bs : List UInt8}
    (hs : Stops now p d bs d') : bs = [] := by
  induction p generalizing d bs with
  | done a => exact (stops_done hs).1
  | access r next ih =>
      cases hs with
      | here => rfl
      | during hs => exact hs.of_isSilent h.1
      | after hs => rw [h.1.written_eq, List.nil_append, ih _ (h.2 _) hs]

end Program

end Reachability.Disk
