import Mathlib.Data.Finset.Card
import Mathlib.Logic.Relation
import Mathlib.Tactic

/-!
# Worklist traversals

The traversal of a graph with a stack of nodes to process and a set of marked nodes.  A popped
node has each of its successors marked and pushed, unless it is marked already.  Nodes are marked
when they are pushed, so the nodes the traversal starts from need not be marked.

* `loop_stack_eq_nil`: with enough fuel the traversal ends with an empty stack;
* `mem_marked_iff`: it marks exactly the nodes that can be reached through unmarked nodes;
* `popped_perm`: it pops the nodes it starts from and, once each, the nodes it marks;
* `loop_union`: additional marks that the traversal never meets do not change it;
* `count_popped`, `mem_popped`: how often each node is popped;
* `loop_congr`: only the successors of popped nodes matter;
* `loop_of_finished`: more fuel than a traversal needs makes no difference.
-/

namespace Worklist

variable {α : Type} [DecidableEq α]

/-- Mark and push the nodes of a list that are not marked yet. -/
def push (marked : Finset α) (stack : List α) : List α → Finset α × List α
  | [] => (marked, stack)
  | y :: ys =>
    if y ∈ marked then push marked stack ys else push (insert y marked) (y :: stack) ys

/-- What a traversal ends with: the marked nodes, the rest of the stack, and the nodes in the
order in which they were popped. -/
structure Result (α : Type) where
  marked : Finset α
  stack : List α
  popped : List α

/-- Pop, mark and push until the stack (or the fuel) is used up. -/
def loop (succ : α → List α) : ℕ → Finset α → List α → Result α
  | 0, marked, stack => ⟨marked, stack, []⟩
  | _ + 1, marked, [] => ⟨marked, [], []⟩
  | n + 1, marked, x :: stack =>
    let p := push marked stack (succ x)
    let r := loop succ n p.1 p.2
    ⟨r.marked, r.stack, x :: r.popped⟩

/-- `y` is reached from one of the nodes `l`, in at least one step, and no node entered on the way
is in `avoid`. -/
def Reaches (succ : α → List α) (avoid : Finset α) (l : List α) (y : α) : Prop :=
  ∃ x ∈ l, Relation.TransGen (fun a b => b ∈ succ a ∧ b ∉ avoid) x y

/-! ### Pushing the successors of one node -/

theorem push_marked (marked : Finset α) (stack ys : List α) :
    (push marked stack ys).1 = marked ∪ ys.toFinset := by
  induction ys generalizing marked stack with
  | nil => simp [push]
  | cons y ys ih =>
    rw [push]
    split_ifs with h
    · rw [ih, List.toFinset_cons, Finset.union_insert, Finset.insert_eq_of_mem]
      exact Finset.mem_union_left _ h
    · rw [ih, List.toFinset_cons, Finset.insert_union, Finset.union_insert]

/-- The nodes pushed are the unmarked ones, each once. -/
theorem push_stack (marked : Finset α) (stack ys : List α) :
    ∃ new, (push marked stack ys).2 = new ++ stack ∧ new.Nodup ∧
      ∀ y, y ∈ new ↔ y ∈ ys ∧ y ∉ marked := by
  induction ys generalizing marked stack with
  | nil => exact ⟨[], by simp [push]⟩
  | cons y ys ih =>
    rw [push]
    split_ifs with h
    · obtain ⟨new, h1, h2, h3⟩ := ih marked stack
      exact ⟨new, h1, h2, fun z => by rw [h3]; grind⟩
    · obtain ⟨new, h1, h2, h3⟩ := ih (insert y marked) (y :: stack)
      refine ⟨new ++ [y], by simp [h1], ?_, fun z => ?_⟩
      · refine h2.append (List.nodup_singleton y) ?_
        simp [h3]
      · rw [List.mem_append, h3]
        grind

theorem push_union {marked extra : Finset α} {stack ys : List α}
    (h : ∀ y ∈ ys, y ∉ marked → y ∉ extra) :
    push (marked ∪ extra) stack ys =
      ((push marked stack ys).1 ∪ extra, (push marked stack ys).2) := by
  induction ys generalizing marked stack with
  | nil => rfl
  | cons y ys ih =>
    have hys : ∀ z ∈ ys, z ∉ marked → z ∉ extra := fun z hz => h z (List.mem_cons_of_mem y hz)
    rw [push, push]
    by_cases hy : y ∈ marked
    · rw [if_pos hy, if_pos (Finset.mem_union_left _ hy), ih hys]
    · have hy' : y ∉ marked ∪ extra := by
        simp [hy, h y List.mem_cons_self hy]
      rw [if_neg hy, if_neg hy', ← Finset.insert_union, ih]
      intro z hz hzm
      exact hys z hz fun hm => hzm (Finset.mem_insert_of_mem hm)

/-- A loop that, for each node it looks at, marks and pushes it or leaves marks and stack alone, is
`push` for the nodes it takes an interest in. -/
theorem foldl_eq_push {σ : Type} {f : σ → α → σ} {I : σ → Prop} {P : α → Bool}
    (mk : σ → Finset α) (st : σ → List α) (hinv : ∀ s y, I s → I (f s y))
    (hskip : ∀ s y, I s → P y = false ∨ y ∈ mk s → mk (f s y) = mk s ∧ st (f s y) = st s)
    (hpush : ∀ s y, I s → P y → y ∉ mk s → mk (f s y) = insert y (mk s) ∧ st (f s y) = y :: st s)
    {s : σ} (hs : I s) (l : List α) :
    mk (l.foldl f s) = (push (mk s) (st s) (l.filter P)).1 ∧
      st (l.foldl f s) = (push (mk s) (st s) (l.filter P)).2 := by
  induction l generalizing s with
  | nil => exact ⟨rfl, rfl⟩
  | cons y l ih =>
    obtain ⟨ih1, ih2⟩ := ih (hinv s y hs)
    rw [List.foldl_cons, ih1, ih2, List.filter_cons]
    cases hP : P y with
    | false =>
      obtain ⟨h1, h2⟩ := hskip s y hs (Or.inl hP)
      simp [h1, h2]
    | true =>
      by_cases hy : y ∈ mk s
      · obtain ⟨h1, h2⟩ := hskip s y hs (Or.inr hy)
        simp [push, h1, h2, hy]
      · obtain ⟨h1, h2⟩ := hpush s y hs hP hy
        simp [push, h1, h2, hy]

/-! ### The whole traversal -/

variable {succ : α → List α}

/-- Each pop takes one node off the stack, and each push uses up one unmarked node of `U`. -/
theorem loop_stack_eq_nil {U : Finset α} (hU : ∀ x, ∀ y ∈ succ x, y ∈ U) {n : ℕ}
    {marked : Finset α} {stack : List α} (hn : stack.length + (U \ marked).card ≤ n) :
    (loop succ n marked stack).stack = [] := by
  induction n generalizing marked stack with
  | zero =>
    have hs : stack.length = 0 := by omega
    exact List.length_eq_zero_iff.1 hs
  | succ n ih =>
    match stack with
    | [] => rfl
    | x :: stack =>
      obtain ⟨new, h1, h2, h3⟩ := push_stack marked stack (succ x)
      refine ih ?_
      rw [h1, push_marked, List.length_append]
      -- the nodes that are pushed are those of `U` that get marked
      have hsplit : (U \ (marked ∪ (succ x).toFinset)).card + new.length = (U \ marked).card := by
        rw [← List.toFinset_card_of_nodup h2, ← Finset.card_union_of_disjoint]
        · congr 1
          ext y
          have := hU x y
          simp only [Finset.mem_union, Finset.mem_sdiff, List.mem_toFinset, h3]
          grind
        · rw [Finset.disjoint_left]
          intro y hy hnew
          simp only [Finset.mem_sdiff, Finset.mem_union, List.mem_toFinset] at hy hnew
          exact hy.2 (Or.inr ((h3 y).1 hnew).1)
      rw [List.length_cons] at hn
      omega

theorem marked_subset (succ : α → List α) (n : ℕ) (marked : Finset α) (stack : List α) :
    marked ⊆ (loop succ n marked stack).marked := by
  induction n generalizing marked stack with
  | zero => exact Finset.Subset.refl _
  | succ n ih =>
    match stack with
    | [] => exact Finset.Subset.refl _
    | x :: stack =>
      refine Finset.Subset.trans ?_ (ih _ _)
      rw [push_marked]
      exact Finset.subset_union_left

/-- Every successor of a popped node is marked in the end. -/
theorem succ_of_popped {n : ℕ} {marked : Finset α} {stack : List α} {x : α}
    (hx : x ∈ (loop succ n marked stack).popped) :
    ∀ y ∈ succ x, y ∈ (loop succ n marked stack).marked := by
  induction n generalizing marked stack with
  | zero => simp [loop] at hx
  | succ n ih =>
    match stack with
    | [] => simp [loop] at hx
    | z :: stack =>
      intro y hy
      rcases List.mem_cons.1 hx with rfl | hx
      · apply marked_subset succ n
        rw [push_marked]
        exact Finset.mem_union_right _ (List.mem_toFinset.2 hy)
      · exact ih hx y hy

/-- What holds of the nodes a traversal starts with, and passes on to the unmarked successors,
holds of everything it pops and marks. -/
theorem loop_sound {C D : α → Prop} (hDC : ∀ y, D y → C y) {n : ℕ} {marked : Finset α}
    {stack : List α} (hstack : ∀ x ∈ stack, C x)
    (hsucc : ∀ x, C x → ∀ y ∈ succ x, y ∉ marked → D y) :
    (∀ x ∈ (loop succ n marked stack).popped, C x) ∧
      ∀ y ∈ (loop succ n marked stack).marked, y ∈ marked ∨ D y := by
  induction n generalizing marked stack with
  | zero => exact ⟨by simp [loop], fun y hy => Or.inl hy⟩
  | succ n ih =>
    match stack with
    | [] => exact ⟨by simp [loop], fun y hy => Or.inl hy⟩
    | z :: stack =>
      obtain ⟨new, h1, -, h3⟩ := push_stack marked stack (succ z)
      have hz := hstack z List.mem_cons_self
      have hm := push_marked marked stack (succ z)
      have hstack' : ∀ x ∈ (push marked stack (succ z)).2, C x := by
        intro x hx
        rw [h1, List.mem_append, h3] at hx
        rcases hx with ⟨hx, hxm⟩ | hx
        · exact hDC x (hsucc z hz x hx hxm)
        · exact hstack x (List.mem_cons_of_mem z hx)
      have hsucc' : ∀ x, C x → ∀ y ∈ succ x, y ∉ (push marked stack (succ z)).1 → D y := by
        intro x hx y hy hym
        rw [hm, Finset.mem_union, not_or] at hym
        exact hsucc x hx y hy hym.1
      obtain ⟨ih1, ih2⟩ := ih hstack' hsucc'
      constructor
      · intro x hx
        rcases List.mem_cons.1 hx with rfl | hx
        · exact hz
        · exact ih1 x hx
      · intro y hy
        rcases ih2 y hy with hy | hy
        · rw [hm, Finset.mem_union, List.mem_toFinset] at hy
          by_cases hym : y ∈ marked
          · exact Or.inl hym
          · exact Or.inr (hsucc z hz y (hy.resolve_left hym) hym)
        · exact Or.inr hy

/-- **A finished traversal pops the nodes it started from and, once each, the nodes it marked.** -/
theorem popped_perm {n : ℕ} {marked : Finset α} {stack : List α}
    (h : (loop succ n marked stack).stack = []) :
    ∃ new, (loop succ n marked stack).popped.Perm (stack ++ new) ∧ new.Nodup ∧
      ∀ y, y ∈ new ↔ y ∈ (loop succ n marked stack).marked ∧ y ∉ marked := by
  induction n generalizing marked stack with
  | zero =>
    have hs : stack = [] := h
    exact ⟨[], by simp [loop, hs]⟩
  | succ n ih =>
    match stack with
    | [] => exact ⟨[], by simp [loop]⟩
    | x :: stack =>
      obtain ⟨new₁, h1, h2, h3⟩ := push_stack marked stack (succ x)
      obtain ⟨new₂, ih1, ih2, ih3⟩ := ih h
      have hm := push_marked marked stack (succ x)
      refine ⟨new₁ ++ new₂, ?_, ?_, fun y => ?_⟩
      · refine (ih1.cons x).trans ?_
        rw [h1, List.cons_append, List.append_assoc, List.perm_cons]
        rw [← List.append_assoc, ← List.append_assoc]
        exact List.perm_append_comm.append_right new₂
      · refine h2.append ih2 fun y hy₁ hy₂ => ?_
        rw [ih3, hm] at hy₂
        exact hy₂.2 (Finset.mem_union_right _ (List.mem_toFinset.2 ((h3 y).1 hy₁).1))
      · have hsub := marked_subset succ n (push marked stack (succ x)).1
          (push marked stack (succ x)).2
        rw [List.mem_append, ih3, h3, show (push marked stack (succ x)).1 = _ from hm,
          Finset.mem_union, List.mem_toFinset, not_or]
        change _ ↔ y ∈ (loop succ n (push marked stack (succ x)).1
          (push marked stack (succ x)).2).marked ∧ _
        rw [hm] at hsub ⊢
        constructor
        · rintro (⟨hy, hym⟩ | ⟨hy, hym, -⟩)
          · exact ⟨hsub (Finset.mem_union_right _ (List.mem_toFinset.2 hy)), hym⟩
          · exact ⟨hy, hym⟩
        · rintro ⟨hy, hym⟩
          by_cases hys : y ∈ succ x
          · exact Or.inl ⟨hys, hym⟩
          · exact Or.inr ⟨hy, hym, hys⟩

omit [DecidableEq α] in
theorem notMem_of_transGen {avoid : Finset α} {x y : α}
    (h : Relation.TransGen (fun a b => b ∈ succ a ∧ b ∉ avoid) x y) : y ∉ avoid := by
  cases h with
  | single hstep => exact hstep.2
  | tail _ hstep => exact hstep.2

/-- **A finished traversal marks exactly what it reaches through unmarked nodes.** -/
theorem mem_marked_iff {n : ℕ} {marked : Finset α} {stack : List α}
    (h : (loop succ n marked stack).stack = []) {y : α} (hy : y ∉ marked) :
    y ∈ (loop succ n marked stack).marked ↔ Reaches succ marked stack y := by
  constructor
  · intro hmem
    have hsound := @loop_sound _ _ succ (fun z => z ∈ stack ∨ Reaches succ marked stack z)
      (Reaches succ marked stack) (fun z hz => Or.inr hz) n marked stack (fun x hx => Or.inl hx) ?_
    · exact (hsound.2 y hmem).resolve_left hy
    · rintro x (hx | ⟨w, hw, hwx⟩) z hz hzm
      · exact ⟨x, hx, .single ⟨hz, hzm⟩⟩
      · exact ⟨w, hw, hwx.tail ⟨hz, hzm⟩⟩
  · rintro ⟨x, hx, hxy⟩
    obtain ⟨new, h1, -, h3⟩ := popped_perm h
    have hpop : ∀ z, z ∈ stack ∨ (z ∈ (loop succ n marked stack).marked ∧ z ∉ marked) →
        z ∈ (loop succ n marked stack).popped := by
      intro z hz
      rw [h1.mem_iff, List.mem_append, h3]
      exact hz
    clear hy
    induction hxy with
    | single hstep => exact succ_of_popped (hpop x (Or.inl hx)) _ hstep.1
    | tail hab hstep ih =>
      exact succ_of_popped (hpop _ (Or.inr ⟨ih, notMem_of_transGen hab⟩)) _ hstep.1

/-- **Additional marks that the traversal never meets do not change it.** -/
theorem loop_union {C : α → Prop} {n : ℕ} {marked extra : Finset α} {stack : List α}
    (hstack : ∀ x ∈ stack, C x)
    (hsucc : ∀ x, C x → ∀ y ∈ succ x, y ∉ marked → C y ∧ y ∉ extra) :
    (loop succ n (marked ∪ extra) stack).popped = (loop succ n marked stack).popped := by
  induction n generalizing marked stack with
  | zero => rfl
  | succ n ih =>
    match stack with
    | [] => rfl
    | z :: stack =>
      obtain ⟨new, h1, -, h3⟩ := push_stack marked stack (succ z)
      have hz := hstack z List.mem_cons_self
      have hpush : push (marked ∪ extra) stack (succ z) =
          ((push marked stack (succ z)).1 ∪ extra, (push marked stack (succ z)).2) :=
        push_union fun y hy hym => (hsucc z hz y hy hym).2
      simp only [loop, hpush]
      rw [ih]
      · intro x hx
        rw [h1, List.mem_append, h3] at hx
        rcases hx with ⟨hx, hxm⟩ | hx
        · exact (hsucc z hz x hx hxm).1
        · exact hstack x (List.mem_cons_of_mem z hx)
      · intro x hx y hy hym
        rw [push_marked, Finset.mem_union, not_or] at hym
        exact hsucc x hx y hy hym.1

/-- A node is popped as often as it is on the stack, and once more when it is reached. -/
theorem count_popped {n : ℕ} {marked : Finset α} {stack : List α}
    (h : (loop succ n marked stack).stack = []) (y : α) [Decidable (Reaches succ marked stack y)] :
    (loop succ n marked stack).popped.count y =
      stack.count y + if Reaches succ marked stack y then 1 else 0 := by
  obtain ⟨new, h1, h2, h3⟩ := popped_perm h
  rw [h1.count_eq, List.count_append]
  congr 1
  have hnew : y ∈ new ↔ Reaches succ marked stack y := by
    rw [h3]
    constructor
    · exact fun hy => (mem_marked_iff h hy.2).1 hy.1
    · rintro ⟨x, hx, hxy⟩
      have hy := notMem_of_transGen hxy
      exact ⟨(mem_marked_iff h hy).2 ⟨x, hx, hxy⟩, hy⟩
  split_ifs with hr
  · exact List.count_eq_one_of_mem h2 (hnew.2 hr)
  · exact List.count_eq_zero.2 fun hy => hr (hnew.1 hy)

/-- A node is popped when it is on the stack or reached. -/
theorem mem_popped {n : ℕ} {marked : Finset α} {stack : List α}
    (h : (loop succ n marked stack).stack = []) {y : α} :
    y ∈ (loop succ n marked stack).popped ↔ y ∈ stack ∨ Reaches succ marked stack y := by
  classical
  rw [← List.count_pos_iff, count_popped h, ← List.count_pos_iff]
  split_ifs with hr
  · simp [hr]
  · simp [hr]

/-- Only the successors of the nodes it pops matter to a traversal. -/
theorem loop_congr {succ' : α → List α} {n : ℕ} {marked : Finset α} {stack : List α}
    (h : ∀ x ∈ (loop succ n marked stack).popped, succ x = succ' x) :
    loop succ n marked stack = loop succ' n marked stack := by
  induction n generalizing marked stack with
  | zero => rfl
  | succ n ih =>
    match stack with
    | [] => rfl
    | x :: stack =>
      have hx : succ x = succ' x := h x List.mem_cons_self
      have htail := ih fun y hy => h y (List.mem_cons_of_mem x hy)
      simp only [loop]
      rw [htail, hx]

theorem loop_of_finished {n k : ℕ} (hnk : n ≤ k) {marked : Finset α} {stack : List α}
    (h : (loop succ n marked stack).stack = []) :
    loop succ k marked stack = loop succ n marked stack := by
  induction n generalizing k marked stack with
  | zero =>
    have hstack : stack = [] := h
    rw [hstack]
    cases k <;> rfl
  | succ n ih =>
    obtain ⟨k, rfl⟩ : ∃ k', k = k' + 1 := ⟨k - 1, by omega⟩
    match stack with
    | [] => rfl
    | x :: stack =>
      have htail := ih (k := k) (by omega) h
      simp only [loop]
      rw [htail]

/-- Where nodes without a property have no successors, the first node popped that has it is the
first one on the stack. -/
theorem find?_popped {P : α → Bool} (hP : ∀ x, P x = false → succ x = []) {n : ℕ}
    {marked : Finset α} {stack : List α} (h : (loop succ n marked stack).stack = []) :
    (loop succ n marked stack).popped.find? P = stack.find? P := by
  induction n generalizing marked stack with
  | zero =>
    have hs : stack = [] := h
    rw [hs]
    rfl
  | succ n ih =>
    match stack with
    | [] => rfl
    | x :: stack =>
      simp only [loop] at h ⊢
      rw [List.find?_cons, List.find?_cons]
      cases hx : P x with
      | true => rfl
      | false =>
        rw [hP x hx] at h ⊢
        exact ih h

end Worklist
