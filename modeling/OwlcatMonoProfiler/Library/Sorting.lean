import Mathlib.Data.List.Sort
import Mathlib.Tactic

/-!
# Selecting rows from a sorted table

A query that selects rows by a condition and returns them in the order of a key: a `filter`, and an
insertion sort that keeps rows of equal key in their order.

* `filter_insertionSort`: selecting and sorting commute;
* `insertionSort_reverse`: distinct keys in descending order;
* `infix_window`: the rows whose keys lie between two bounds follow each other in the sorted table;
* `eq_of_pairwise_lt`: sorted rows with distinct keys are determined by which rows they are;
* `foldl_max_spec`: the maximum a loop over the rows finds;
* `min?_map_of_pairwise`, `max?_map_of_pairwise`: the extreme keys are at the ends.
-/

namespace Sorting

variable {α κ : Type}

/-! ### Keys -/

/-- Comparing rows by a key is transitive and total, so that a sort gives sorted rows. -/
theorem isTrans_key {β : Type} [LE β] [Std.IsLinearOrder β] (key : α → β) :
    IsTrans α fun x y => key x ≤ key y :=
  ⟨fun _ _ _ h h' => Std.le_trans h h'⟩

theorem total_key {β : Type} [LE β] [Std.IsLinearOrder β] (key : α → β) :
    Std.Total (α := α) fun x y => key x ≤ key y :=
  ⟨fun _ _ => Std.le_total⟩

section Order

variable {β : Type} [LE β] [Std.IsLinearOrder β] [DecidableLE β]

/-- Where no two elements have the same key, the descending order is the ascending one reversed. -/
theorem insertionSort_reverse (key : α → β) {l : List α}
    (hinj : ∀ x ∈ l, ∀ y ∈ l, key x = key y → x = y) :
    l.insertionSort (fun x y => key y ≤ key x) =
      (l.insertionSort fun x y => key x ≤ key y).reverse := by
  have := isTrans_key key
  have := total_key key
  have : IsTrans α fun x y => key y ≤ key x := ⟨fun _ _ _ h h' => Std.le_trans h' h⟩
  have : Std.Total fun x y : α => key y ≤ key x := ⟨fun _ _ => Std.le_total⟩
  have hperm : (l.insertionSort fun x y => key y ≤ key x).Perm
      (l.insertionSort fun x y => key x ≤ key y).reverse :=
    (List.perm_insertionSort _ l).trans
      ((List.perm_insertionSort _ l).symm.trans (List.reverse_perm _).symm)
  refine hperm.eq_of_pairwise (fun x y hx hy hyx hxy => ?_) (List.pairwise_insertionSort _ l)
    (List.pairwise_reverse.2 (List.pairwise_insertionSort _ l))
  exact hinj x ((List.mem_insertionSort _).1 hx) y
    ((List.mem_insertionSort _).1 (List.mem_reverse.1 hy)) (Std.le_antisymm hxy hyx)

end Order

/-- An element that belongs behind all others. -/
theorem orderedInsert_eq_append {r : α → α → Prop} [DecidableRel r] {a : α} {l : List α}
    (h : ∀ b ∈ l, ¬r a b) : l.orderedInsert r a = l ++ [a] := by
  induction l with
  | nil => rfl
  | cons b l ih =>
    rw [List.orderedInsert_of_not_le _ _ (h b List.mem_cons_self),
      ih fun c hc => h c (List.mem_cons_of_mem _ hc), List.cons_append]

/-! ### Selecting and sorting -/

section Relation

variable (r : α → α → Prop) [DecidableRel r] (p : α → Bool)

/-- Inserting a row and selecting afterwards. -/
theorem filter_orderedInsert [IsTrans α r] (a : α) {l : List α} (h : l.Pairwise r) :
    (l.orderedInsert r a).filter p =
      if p a then (l.filter p).orderedInsert r a else l.filter p := by
  induction l with
  | nil => cases hp : p a <;> simp [hp]
  | cons b l ih =>
    obtain ⟨hb, hl⟩ := List.pairwise_cons.1 h
    by_cases hab : r a b
    · -- the row goes in front of all that are selected
      have hfront : ∀ c ∈ (b :: l).filter p, r a c := by
        intro c hc
        rcases List.mem_cons.1 (List.mem_of_mem_filter hc) with rfl | hc
        · exact hab
        · exact IsTrans.trans a b c hab (hb c hc)
      rw [List.orderedInsert_cons_of_le _ _ hab, List.filter_cons]
      split_ifs with hp
      · cases hl' : (b :: l).filter p with
        | nil => rfl
        | cons c l' =>
          rw [List.orderedInsert_cons_of_le _ _ (hfront c (hl' ▸ List.mem_cons_self))]
      · rfl
    · rw [List.orderedInsert_of_not_le _ _ hab, List.filter_cons, List.filter_cons, ih hl]
      split_ifs with hpb hpa
      · rw [List.orderedInsert_of_not_le _ _ hab]
      · rfl
      · rfl
      · rfl

theorem filter_insertionSort [IsTrans α r] [Std.Total r] (l : List α) :
    (l.insertionSort r).filter p = (l.filter p).insertionSort r := by
  induction l with
  | nil => rfl
  | cons a l ih =>
    rw [List.insertionSort_cons, filter_orderedInsert r p a (List.pairwise_insertionSort r l), ih,
      List.filter_cons]
    split_ifs <;> rfl

end Relation

/-! ### Windows of a sorted table -/

section Window

variable {r : α → α → Prop} {p q : α → Bool}

/-- The rows up to a bound are a prefix of the sorted table. -/
theorem prefix_upTo (hp : ∀ x y, r x y → p y → p x) {l : List α} (h : l.Pairwise r) :
    l.filter p <+: l := by
  induction l with
  | nil => exact List.prefix_rfl
  | cons a l ih =>
    obtain ⟨ha, hl⟩ := List.pairwise_cons.1 h
    rw [List.filter_cons]
    split_ifs with hpa
    · exact (List.prefix_cons_inj a).2 (ih hl)
    · -- after a row beyond the bound there are only such rows
      have hnone : l.filter p = [] :=
        List.filter_eq_nil_iff.2 fun b hb hpb => hpa (hp a b (ha b hb) hpb)
      rw [hnone]
      exact List.nil_prefix

/-- **The rows between two bounds follow each other in the sorted table.** -/
theorem infix_window (hq : ∀ x y, r x y → q x → q y) (hp : ∀ x y, r x y → p y → p x)
    {l : List α} (h : l.Pairwise r) : l.filter (fun x => q x && p x) <:+: l := by
  induction l with
  | nil => exact List.infix_rfl
  | cons a l ih =>
    obtain ⟨ha, hl⟩ := List.pairwise_cons.1 h
    by_cases hqa : q a
    · -- from here on the lower bound holds
      have hsame : (a :: l).filter (fun x => q x && p x) = (a :: l).filter p := by
        refine List.filter_congr fun b hb => ?_
        rcases List.mem_cons.1 hb with rfl | hb
        · rw [hqa, Bool.true_and]
        · rw [hq a b (ha b hb) hqa, Bool.true_and]
      rw [hsame]
      exact List.IsPrefix.isInfix (prefix_upTo hp h)
    · rw [List.filter_cons, if_neg (by simp [hqa])]
      exact (ih hl).trans (List.suffix_cons a l).isInfix

end Window

theorem eq_of_pairwise_lt (key : α → ℤ) {xs ys : List α}
    (hxs : xs.Pairwise fun x y => key x < key y) (hys : ys.Pairwise fun x y => key x < key y)
    (hmem : ∀ a, a ∈ xs ↔ a ∈ ys) : xs = ys := by
  have hnodup : ∀ {zs : List α}, zs.Pairwise (fun x y => key x < key y) → zs.Nodup := by
    intro zs h
    exact h.imp fun {x y} hlt heq => (congrArg key heq).not_lt hlt
  apply List.Perm.eq_of_pairwise (fun a b _ _ hab hba => absurd hab hba.asymm) hxs hys
  exact (List.perm_ext_iff_of_nodup (hnodup hxs) (hnodup hys)).2 hmem

/-! ### Maxima -/

/-- The maximum a loop over the rows keeps is one of the values it has seen, and none of them is
larger. -/
theorem foldl_max_spec [LT κ] [DecidableLT κ] (toInt : κ → ℤ)
    (hlt : ∀ x y, x < y ↔ toInt x < toInt y) (f : α → κ) (l : List α) (b : κ) :
    let m := l.foldl (fun m x => if f x > m then f x else m) b
    (∀ x ∈ l, toInt (f x) ≤ toInt m) ∧ toInt b ≤ toInt m ∧ (m = b ∨ ∃ x ∈ l, m = f x) := by
  induction l generalizing b with
  | nil => simp
  | cons a l ih =>
    obtain ⟨ih1, ih2, ih3⟩ := ih (if f a > b then f a else b)
    simp only [List.foldl_cons]
    generalize l.foldl (fun m x => if f x > m then f x else m) (if f a > b then f a else b) = m
      at ih1 ih2 ih3
    have hboth : toInt (f a) ≤ toInt (if f a > b then f a else b) ∧
        toInt b ≤ toInt (if f a > b then f a else b) := by
      split_ifs with hab
      · exact ⟨le_rfl, ((hlt b (f a)).1 hab).le⟩
      · exact ⟨not_lt.1 fun h => hab ((hlt b (f a)).2 h), le_rfl⟩
    refine ⟨fun x hx => ?_, hboth.2.trans ih2, ?_⟩
    · rcases List.mem_cons.1 hx with rfl | hx
      · exact hboth.1.trans ih2
      · exact ih1 x hx
    · rcases ih3 with h | ⟨x, hx, h⟩
      · split_ifs at h
        · exact Or.inr ⟨a, List.mem_cons_self, h⟩
        · exact Or.inl h
      · exact Or.inr ⟨x, List.mem_cons_of_mem a hx, h⟩

/-! ### Extrema of a sorted table -/

theorem max_int64 (a b : Int64) : max a b = if a ≤ b then b else a := rfl

instance lawfulOrderMax_int64 : Std.LawfulOrderMax Int64 where
  max_le_iff a b c := by
    rw [max_int64]
    split_ifs with h
    · exact ⟨fun hb => ⟨Std.le_trans h hb, hb⟩, fun hb => hb.2⟩
    · have hba : b ≤ a := (Std.le_total (a := a) (b := b)).resolve_left h
      exact ⟨fun ha => ⟨ha, Std.le_trans hba ha⟩, fun ha => ha.1⟩
  max_eq_or a b := by
    rw [max_int64]
    split_ifs
    · exact Or.inr rfl
    · exact Or.inl rfl

section Extrema

variable [LE κ] [Std.IsLinearOrder κ] (key : α → κ)

/-- The first row has the smallest key. -/
theorem min?_map_of_pairwise [Min κ] [Std.LawfulOrderMin κ] {l : List α}
    (h : l.Pairwise fun x y => key x ≤ key y) : (l.map key).min? = l.head?.map key := by
  cases l with
  | nil => rfl
  | cons a l =>
    refine List.min?_eq_some_iff.2 ⟨List.mem_map_of_mem List.mem_cons_self, fun b hb => ?_⟩
    obtain ⟨y, hy, rfl⟩ := List.mem_map.1 hb
    rcases List.mem_cons.1 hy with rfl | hy
    · exact Std.le_refl _
    · exact (List.pairwise_cons.1 h).1 y hy

/-- The last row has the largest key. -/
theorem max?_map_of_pairwise [Max κ] [Std.LawfulOrderMax κ] {l : List α}
    (h : l.Pairwise fun x y => key x ≤ key y) : (l.map key).max? = l.getLast?.map key := by
  cases l using List.reverseRecOn with
  | nil => rfl
  | append_singleton l a =>
    have hlast : (l ++ [a]).getLast?.map key = some (key a) := by simp
    rw [hlast]
    refine List.max?_eq_some_iff.2 ⟨List.mem_map_of_mem (by simp), fun b hb => ?_⟩
    obtain ⟨y, hy, rfl⟩ := List.mem_map.1 hb
    rcases List.mem_append.1 hy with hy | hy
    · exact (List.pairwise_append.1 h).2.2 y hy a List.mem_cons_self
    · rw [List.mem_singleton.1 hy]
      exact Std.le_refl _

end Extrema

end Sorting
