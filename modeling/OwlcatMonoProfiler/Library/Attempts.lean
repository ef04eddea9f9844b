import Mathlib.Tactic

/-!
# Operations whose failures are ignored

A program runs a list of operations on a state and looks at no result.  An operation has no effect
when the state rejects it or when it fails for a reason of its own, and the next one is run all the
same.

* `attemptAll`: what such a program does;
* `runAll`: what it was written to do, the effect of all operations or no result;
* `NoFault`: no operation of a list is struck;
* `size_attemptAll_iff`: when every operation adds one to a measure, the measure shows whether all
  of them took effect.
-/

namespace Attempts

variable {α : Type} {op : α → Option α} {ops ops' : List (α → Option α)} {faults : List Bool}
  {a b : α}

/-- Run operations one after the other.  The faults say which of them fail for reasons of their own;
those after the end of the list do not. -/
def attemptAll : List (α → Option α) → List Bool → α → α
  | [], _, a => a
  | op :: ops, faults, a =>
    attemptAll ops faults.tail (if faults.head? = some true then a else (op a).getD a)

/-- The effect of all operations, when none is rejected. -/
def runAll (ops : List (α → Option α)) (a : α) : Option α := ops.foldlM (fun a op => op a) a

/-- The operation at this place fails for a reason of its own. -/
def Struck (faults : List Bool) (i : ℕ) : Prop := faults[i]? = some true

instance (faults : List Bool) (i : ℕ) : Decidable (Struck faults i) :=
  inferInstanceAs (Decidable (faults[i]? = some true))

/-- None of the first operations does. -/
def NoFault (faults : List Bool) (n : ℕ) : Prop := ∀ i < n, ¬Struck faults i

instance (faults : List Bool) (n : ℕ) : Decidable (NoFault faults n) :=
  inferInstanceAs (Decidable (∀ i < n, ¬Struck faults i))

/-! ### The faults -/

theorem struck_zero : Struck faults 0 ↔ faults.head? = some true := by
  rw [Struck, List.head?_eq_getElem?]

theorem struck_tail (i : ℕ) : Struck faults.tail i ↔ Struck faults (i + 1) := by
  rw [Struck, Struck, List.getElem?_tail]

theorem struck_drop (n i : ℕ) : Struck (faults.drop n) i ↔ Struck faults (n + i) := by
  rw [Struck, Struck, List.getElem?_drop]

theorem noFault_zero (faults : List Bool) : NoFault faults 0 := fun _ hi => absurd hi (by omega)

theorem noFault_succ (n : ℕ) :
    NoFault faults (n + 1) ↔ ¬Struck faults 0 ∧ NoFault faults.tail n := by
  constructor
  · intro h
    refine ⟨h 0 (by omega), fun i hi => ?_⟩
    rw [struck_tail]
    exact h (i + 1) (by omega)
  · rintro ⟨hzero, htail⟩ i hi
    cases i with
    | zero => exact hzero
    | succ i => exact (struck_tail i).not.1 (htail i (by omega))

theorem noFault_one : NoFault faults 1 ↔ ¬Struck faults 0 := by
  rw [noFault_succ, and_iff_left (noFault_zero _)]

/-- None of several operations is struck when none of the first is and none of the others. -/
theorem noFault_add (m n : ℕ) :
    NoFault faults (m + n) ↔ NoFault faults m ∧ NoFault (faults.drop m) n := by
  constructor
  · refine fun h => ⟨fun i hi => h i (by omega), fun i hi => ?_⟩
    rw [struck_drop]
    exact h (m + i) (by omega)
  · rintro ⟨hfirst, hrest⟩ i hi
    rcases lt_or_ge i m with hlt | hge
    · exact hfirst i hlt
    · obtain ⟨d, rfl⟩ := Nat.exists_eq_add_of_le hge
      exact (struck_drop m d).not.1 (hrest d (by omega))

theorem noFault_nil (n : ℕ) : NoFault [] n := fun i _ h => by
  rw [Struck, List.getElem?_nil] at h
  cases h

/-! ### Running a list -/

@[simp] theorem runAll_nil (a : α) : runAll [] a = some a := rfl

theorem runAll_cons (op : α → Option α) (ops : List (α → Option α)) (a : α) :
    runAll (op :: ops) a = (op a).bind (runAll ops) :=
  List.foldlM_cons

theorem runAll_append (ops ops' : List (α → Option α)) (a : α) :
    runAll (ops ++ ops') a = (runAll ops a).bind (runAll ops') :=
  List.foldlM_append

theorem attemptAll_append (ops ops' : List (α → Option α)) (faults : List Bool) (a : α) :
    attemptAll (ops ++ ops') faults a =
      attemptAll ops' (faults.drop ops.length) (attemptAll ops faults a) := by
  induction ops generalizing faults a with
  | nil => rfl
  | cons op ops ih =>
    rw [List.cons_append, attemptAll, ih, attemptAll, List.length_cons, List.drop_tail]

/-- Without a fault and a rejection the operations have all their effects. -/
theorem attemptAll_of_noFault (h : NoFault faults ops.length) (hrun : runAll ops a = some b) :
    attemptAll ops faults a = b := by
  induction ops generalizing faults a with
  | nil => exact Option.some.inj hrun
  | cons op ops ih =>
    rw [List.length_cons, noFault_succ] at h
    rw [runAll_cons, Option.bind_eq_some_iff] at hrun
    obtain ⟨c, hop, hrun⟩ := hrun
    rw [attemptAll, if_neg (struck_zero.not.1 h.1), hop, Option.getD_some]
    exact ih h.2 hrun

/-- What every operation keeps, all of them keep. -/
theorem runAll_keeps {β : Type} {f : α → β} (h : ∀ op ∈ ops, ∀ a b, op a = some b → f b = f a)
    (hrun : runAll ops a = some b) : f b = f a := by
  induction ops generalizing a with
  | nil => rw [Option.some.inj hrun]
  | cons op ops ih =>
    rw [runAll_cons, Option.bind_eq_some_iff] at hrun
    obtain ⟨c, hop, hrun⟩ := hrun
    rw [List.forall_mem_cons] at h
    exact (ih h.2 hrun).trans (h.1 a c hop)

/-! ### A measure of the effects -/

section Size

variable {size : α → ℕ}

/-- Every operation that is not rejected adds one to the measure. -/
def Grow (size : α → ℕ) (ops : List (α → Option α)) : Prop :=
  ∀ op ∈ ops, ∀ a b, op a = some b → size b = size a + 1

theorem size_runAll (h : Grow size ops) (hrun : runAll ops a = some b) :
    size b = size a + ops.length := by
  induction ops generalizing a with
  | nil => rw [Option.some.inj hrun, List.length_nil, Nat.add_zero]
  | cons op ops ih =>
    rw [runAll_cons, Option.bind_eq_some_iff] at hrun
    obtain ⟨c, hop, hrun⟩ := hrun
    rw [Grow, List.forall_mem_cons] at h
    have hstep := h.1 a c hop
    have hrest := ih h.2 hrun
    rw [List.length_cons]
    omega

theorem size_attempt_le (h : ∀ a b, op a = some b → size b = size a + 1) (a : α) :
    size ((op a).getD a) ≤ size a + 1 := by
  cases hop : op a with
  | none => exact Nat.le_succ _
  | some c => exact (h a c hop).le

theorem size_attemptAll_le (h : Grow size ops) (faults : List Bool) (a : α) :
    size (attemptAll ops faults a) ≤ size a + ops.length := by
  induction ops generalizing faults a with
  | nil => exact Nat.le_refl _
  | cons op ops ih =>
    rw [Grow, List.forall_mem_cons] at h
    have hop := size_attempt_le h.1 a
    rw [attemptAll, List.length_cons]
    split_ifs with hfault
    · have hrest := ih h.2 faults.tail a
      omega
    · have hrest := ih h.2 faults.tail ((op a).getD a)
      omega

/-- Operations that shrink nothing do not shrink it together. -/
theorem le_size_attemptAll (h : ∀ op ∈ ops, ∀ a b, op a = some b → size a ≤ size b)
    (faults : List Bool) (a : α) : size a ≤ size (attemptAll ops faults a) := by
  induction ops generalizing faults a with
  | nil => exact Nat.le_refl _
  | cons op ops ih =>
    rw [List.forall_mem_cons] at h
    rw [attemptAll]
    refine le_trans ?_ (ih h.2 faults.tail _)
    split_ifs with hfault
    · exact Nat.le_refl _
    · cases hop : op a with
      | none => exact Nat.le_refl _
      | some b => exact h.1 a b hop

/-- **The measure shows whether all operations took effect.** -/
theorem size_attemptAll_iff (h : Grow size ops) :
    size (attemptAll ops faults a) = size a + ops.length ↔
      NoFault faults ops.length ∧ (runAll ops a).isSome := by
  constructor
  · intro hsize
    induction ops generalizing faults a with
    | nil => exact ⟨noFault_zero faults, rfl⟩
    | cons op ops ih =>
      rw [Grow, List.forall_mem_cons] at h
      rw [attemptAll, List.length_cons] at hsize
      rw [List.length_cons, noFault_succ, struck_zero, runAll_cons]
      split_ifs at hsize with hfault
      · -- a fault leaves too few operations for the rest of the measure
        have hrest := size_attemptAll_le h.2 faults.tail a
        omega
      · cases hop : op a with
        | none =>
          have hrest := size_attemptAll_le h.2 faults.tail a
          rw [hop, Option.getD_none] at hsize
          omega
        | some c =>
          have hstep := h.1 a c hop
          rw [hop, Option.getD_some] at hsize
          have hrest : size (attemptAll ops faults.tail c) = size c + ops.length := by omega
          obtain ⟨hnone, hrun⟩ := ih h.2 hrest
          exact ⟨⟨hfault, hnone⟩, hrun⟩
  · rintro ⟨hnone, hrun⟩
    obtain ⟨b, hb⟩ := Option.isSome_iff_exists.1 hrun
    rw [attemptAll_of_noFault hnone hb]
    exact size_runAll h hb

end Size

end Attempts
