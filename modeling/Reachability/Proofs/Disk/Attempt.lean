import Reachability.Proofs.Disk.Program

set_option autoImplicit false

/-! # Attempts

Which accesses of a program may fail can depend on the disk that they are made on. An attempt
(`Fares`) tells also from which paths files were removed on the way. -/

namespace Reachability.Disk

/-- The path from which an access has removed a file. -/
def Request.removed : (r : Request) → r.Answer → List (List Char)
  | .remove path, .ok _ => [path]
  | _, _ => []

/-- Whether an access removes no file. -/
def Request.IsSparing : Request → Prop
  | .remove _ => False
  | _ => True

theorem Request.IsReading.isSparing {r : Request} (h : r.IsReading) : r.IsSparing := by
  cases r <;> trivial

theorem Request.IsSparing.removed_eq {r : Request} (h : r.IsSparing) (a : r.Answer) :
    r.removed a = [] := by
  cases r <;> first | rfl | exact False.elim h

theorem Request.removed_error (r : Request) (f : Fault) : r.removed (.error f) = [] := by
  cases r <;> rfl

/-- An access that is refused changes nothing. -/
theorem eq_of_perform_error {now : Int} {d d' : Disk} {r : Request} {f : Fault}
    (h : perform now d r = (.error f, d')) : d' = d := by
  have hchanged : ∀ {x : Except Fault Disk}, changed d x = (.error f, d') → d' = d := by
    intro x hx
    cases x <;> cases hx
    rfl
  cases r with
  | openAppend path =>
      simp only [perform] at h
      split at h <;> cases h
      rfl
  | stat | read | list | flush | sync => exact (Prod.mk.inj h).2.symm
  | rename | remove | append | truncate | write => exact hchanged h

/-! ## Single accesses -/

/-- What an access answers, the path from which it removes a file, and what it makes of the disk, if
    it may fail where that is allowed. -/
inductive Tried (P : Disk → Request → Prop) (now : Int) (d : Disk) (r : Request) :
    r.Answer → List (List Char) → Disk → Prop where
  | performed {a : r.Answer} {d' : Disk} (h : perform now d r = (a, d')) :
      Tried P now d r a (r.removed a) d'
  | failed (hr : P d r) (f : Fault) {bs : List UInt8} {d' : Disk} (h : Partly now d r bs d') :
      Tried P now d r (.error f) [] d'

section Tried

variable {P : Disk → Request → Prop} {now : Int} {d d' : Disk} {r : Request}
  {gone : List (List Char)}

theorem Tried.mono {Q : Disk → Request → Prop} {a : r.Answer} (h : Tried P now d r a gone d')
    (hPQ : P d r → Q d r) : Tried Q now d r a gone d' := by
  cases h with
  | performed h => exact .performed h
  | failed hr f h => exact .failed (hPQ hr) f h

theorem Tried.ok {b : r.Result} (h : Tried P now d r (.ok b) gone d') :
    perform now d r = (.ok b, d') ∧ gone = r.removed (.ok b) := by
  cases h with
  | performed h => exact ⟨h, rfl⟩

theorem Tried.error {f : Fault} (h : Tried P now d r (.error f) gone d') :
    gone = [] ∧ ∃ bs, Partly now d r bs d' := by
  cases h with
  | performed h => exact ⟨r.removed_error f, [], eq_of_perform_error h ▸ .nothing r⟩
  | failed hr f h => exact ⟨rfl, _, h⟩

/-- An access that may not fail does what the disk allows. -/
theorem Tried.of_not {a : r.Answer} (h : Tried P now d r a gone d') (hr : ¬ P d r) :
    perform now d r = (a, d') ∧ gone = r.removed a := by
  cases h with
  | performed h => exact ⟨h, rfl⟩
  | failed hr' => exact absurd hr' hr

theorem Tried.gone_eq {a : r.Answer} (h : Tried P now d r a gone d') (hr : r.IsSparing) :
    gone = [] := by
  cases h with
  | performed => exact hr.removed_eq a
  | failed => rfl

theorem Tried.of_isReading {a : r.Answer} (h : Tried P now d r a gone d') (hr : r.IsReading) :
    gone = [] ∧ d' = d := by
  refine ⟨h.gone_eq hr.isSparing, ?_⟩
  cases h with
  | performed h => rw [← hr.perform_eq now d, h]
  | failed _ _ h => exact (h.of_isReading hr).2

end Tried

/-! ## Programs -/

namespace Program

variable {α β : Type} {P : Disk → Request → Prop} {now : Int} {d d' : Disk}
  {gone : List (List Char)}

/-- A program ends with a value and a disk, where accesses may have failed that are allowed to fail
    on the disk at that point. The paths are those from which it has removed files. -/
inductive Fares (P : Disk → Request → Prop) (now : Int) :
    Program α → Disk → List (List Char) → α → Disk → Prop where
  | done (a : α) (d : Disk) : Fares P now (.done a) d [] a d
  | access {r : Request} {next : r.Answer → Program α} {d d₁ d' : Disk} {answer : r.Answer}
      {a : α} {first rest : List (List Char)} (htried : Tried P now d r answer first d₁)
      (h : Fares P now (next answer) d₁ rest a d') :
      Fares P now (.access r next) d (first ++ rest) a d'

theorem Fares.mono {Q : Disk → Request → Prop} {p : Program α} {a : α}
    (h : Fares P now p d gone a d') (hPQ : ∀ d r, P d r → Q d r) : Fares Q now p d gone a d' := by
  induction h with
  | done a d => exact .done a d
  | access htried h ih => exact .access (htried.mono (hPQ _ _)) ih

theorem fares_access {r : Request} {next : r.Answer → Program α} {a : α}
    (h : Fares P now (.access r next) d gone a d') :
    ∃ answer d₁ first rest, gone = first ++ rest ∧ Tried P now d r answer first d₁ ∧
      Fares P now (next answer) d₁ rest a d' := by
  cases h with
  | access htried h => exact ⟨_, _, _, _, rfl, htried, h⟩

theorem fares_bind {p : Program α} {f : α → Program β} {b : β} :
    Fares P now (p.bind f) d gone b d' ↔ ∃ a d₁ first rest, gone = first ++ rest ∧
      Fares P now p d first a d₁ ∧ Fares P now (f a) d₁ rest b d' := by
  induction p generalizing d gone with
  | done a =>
      constructor
      · intro h
        exact ⟨a, d, [], gone, rfl, .done a d, h⟩
      · rintro ⟨a', d₁, first, rest, rfl, hp, hf⟩
        cases hp
        exact hf
  | access r next ih =>
      constructor
      · intro h
        obtain ⟨answer, d₂, before, after, rfl, htried, h⟩ := fares_access h
        obtain ⟨a, d₁, first, rest, rfl, hp, hf⟩ := (ih _).1 h
        exact ⟨a, d₁, _, rest, (List.append_assoc ..).symm, .access htried hp, hf⟩
      · rintro ⟨a, d₁, first, rest, rfl, hp, hf⟩
        cases hp with
        | access htried hp =>
            rw [List.append_assoc]
            exact .access htried ((ih _).2 ⟨a, d₁, _, rest, rfl, hp, hf⟩)

/-- A program that removes no files ends as one whose accesses may fail on any disk. -/
theorem Fares.ends {p : Program α} {a : α} {K Q : Request → Prop} (h : Fares P now p d gone a d')
    (hp : p.Only K) (hK : ∀ r, K r → r.IsSparing) (hQ : ∀ d r, K r → P d r → Q r) :
    gone = [] ∧ Ends Q now p d a d' := by
  induction h with
  | done a d => exact ⟨rfl, .done a d⟩
  | access htried h ih =>
      obtain ⟨hgone, hends⟩ := ih (hp.2 _)
      rw [htried.gone_eq (hK _ hp.1), hgone]
      refine ⟨rfl, ?_⟩
      cases htried with
      | performed hperform =>
          refine .performed ?_
          rw [hperform]
          exact hends
      | failed hr f hpart => exact .failed (hQ _ _ hp.1 hr) f hpart hends

/-- A program that only reads, with accesses that may not fail, runs as the disk allows. -/
theorem Fares.run_eq {p : Program α} {a : α} (h : Fares P now p d gone a d')
    (hp : p.Only fun r => r.IsReading ∧ ¬ P d r) : gone = [] ∧ p.run now d = (a, d') := by
  induction h with
  | done a d => exact ⟨rfl, rfl⟩
  | @access r next d d₁ d' answer a first rest htried h ih =>
      obtain ⟨hperform, -⟩ := htried.of_not hp.1.2
      obtain ⟨rfl, rfl⟩ := htried.of_isReading hp.1.1
      obtain ⟨rfl, hrun⟩ := ih (hp.2 answer)
      refine ⟨rfl, ?_⟩
      rw [run, hperform]
      exact hrun

theorem Fares.of_isReading {p : Program α} {a : α} (h : Fares P now p d gone a d')
    (hp : p.Only Request.IsReading) : gone = [] ∧ d' = d := by
  induction h with
  | done a d => exact ⟨rfl, rfl⟩
  | access htried h ih =>
      obtain ⟨rfl, rfl⟩ := htried.of_isReading hp.1
      obtain ⟨rfl, rfl⟩ := ih (hp.2 _)
      exact ⟨rfl, rfl⟩

theorem fares_run (P : Disk → Request → Prop) (now : Int) (p : Program α) (d : Disk) :
    ∃ gone, Fares P now p d gone (p.run now d).1 (p.run now d).2 := by
  induction p generalizing d with
  | done a => exact ⟨[], .done a d⟩
  | access r next ih =>
      obtain ⟨gone, h⟩ := ih (perform now d r).1 (perform now d r).2
      exact ⟨_, .access (.performed rfl) h⟩

/-- An attempt at a program in which accesses of a kind fail and do nothing. -/
theorem fares_runWithout (fails : Request → Bool) (fault : Fault) (now : Int) (p : Program α)
    (d : Disk) : ∃ gone, Fares (fun _ r => fails r = true) now p d gone
      (p.runWithout fails fault now d).1 (p.runWithout fails fault now d).2 := by
  induction p generalizing d with
  | done a => exact ⟨[], .done a d⟩
  | access r next ih =>
      unfold runWithout
      split
      · next hfails =>
        obtain ⟨gone, h⟩ := ih (.error fault) d
        exact ⟨_, .access (.failed hfails fault (.nothing r)) h⟩
      · obtain ⟨gone, h⟩ := ih (perform now d r).1 (perform now d r).2
        exact ⟨_, .access (.performed rfl) h⟩

end Program

end Reachability.Disk
