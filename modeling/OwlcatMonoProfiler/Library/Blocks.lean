import Mathlib.Data.List.DropRight
import Mathlib.Tactic
import OwlcatMonoProfiler.Library.Grouping

/-!
# Blocks of equal keys

A sequence whose elements carry a key falls into blocks, maximal pieces of one key.  A program that
accumulates something over a block sees the elements one after the other, so the lemmas of this file
say what one more element does.

* `through k l`: the sequence up to the last element of key `k`;
* `lastBlock k l`: the last block of key `k`;
* `trailing l`: the block the sequence ends with;
* `lastBlock_eq_filter`, `through_eq_filter`: in a sequence ordered by key, `lastBlock k` are all
  the elements of key `k`, and `through k` are all those whose key is at most `k`.
-/

namespace Blocks

variable {α κ : Type} (key : α → κ)

/-- The key of the last element. -/
def lastKey (l : List α) : Option κ := l.getLast?.map key

@[simp] theorem lastKey_nil : lastKey key [] = none := rfl

@[simp] theorem lastKey_append (l : List α) (a : α) : lastKey key (l ++ [a]) = some (key a) := by
  simp [lastKey]

theorem lastKey_eq_some {l : List α} {k : κ} (h : lastKey key l = some k) :
    ∃ l' a, l = l' ++ [a] ∧ key a = k := by
  induction l using List.reverseRecOn with
  | nil => simp at h
  | append_singleton l a _ => exact ⟨l, a, rfl, by simpa using h⟩

variable [DecidableEq κ]

/-- The sequence up to the last element of key `k`. -/
def through (k : κ) (l : List α) : List α := l.rdropWhile fun a => key a ≠ k

/-- The last block of key `k`. -/
def lastBlock (k : κ) (l : List α) : List α := (through key k l).rtakeWhile fun a => key a = k

/-- The block the sequence ends with. -/
def trailing (l : List α) : List α :=
  match lastKey key l with
  | none => []
  | some k => lastBlock key k l

variable {key} {k : κ} {l : List α} {a : α}

@[simp] theorem through_nil : through key k [] = [] := rfl

@[simp] theorem lastBlock_nil : lastBlock key k [] = [] := rfl

@[simp] theorem trailing_nil : trailing key [] = [] := rfl

theorem through_append_self (h : key a = k) : through key k (l ++ [a]) = l ++ [a] := by
  rw [through, List.rdropWhile_concat_neg _ _ _ (by simp [h])]

theorem through_append_other (h : key a ≠ k) : through key k (l ++ [a]) = through key k l := by
  rw [through, through, List.rdropWhile_concat_pos _ _ _ (by simp [h])]

theorem through_of_lastKey (h : lastKey key l = some k) : through key k l = l := by
  obtain ⟨l', a, rfl, ha⟩ := lastKey_eq_some key h
  exact through_append_self ha

theorem lastBlock_append_other (h : key a ≠ k) :
    lastBlock key k (l ++ [a]) = lastBlock key k l := by
  rw [lastBlock, lastBlock, through_append_other h]

/-- One more element of the block the sequence ends with. -/
theorem lastBlock_append_of_lastKey (h : lastKey key l = some (key a)) :
    lastBlock key (key a) (l ++ [a]) = lastBlock key (key a) l ++ [a] := by
  rw [lastBlock, lastBlock, through_append_self rfl, through_of_lastKey h,
    List.rtakeWhile_concat_pos _ _ _ (by simp)]

/-- An element of another key starts a block. -/
theorem lastBlock_append_of_lastKey_ne (h : lastKey key l ≠ some (key a)) :
    lastBlock key (key a) (l ++ [a]) = [a] := by
  rw [lastBlock, through_append_self rfl, List.rtakeWhile_concat_pos _ _ _ (by simp)]
  suffices hnil : l.rtakeWhile (fun b => key b = key a) = [] by rw [hnil, List.nil_append]
  rw [List.rtakeWhile_eq_nil_iff]
  intro hl hlast
  refine h ?_
  rw [lastKey, List.getLast?_eq_some_getLast hl, Option.map_some, of_decide_eq_true hlast]

theorem trailing_append : trailing key (l ++ [a]) = lastBlock key (key a) (l ++ [a]) := by
  rw [trailing, lastKey_append]

theorem trailing_append_of_lastKey (h : lastKey key l = some (key a)) :
    trailing key (l ++ [a]) = trailing key l ++ [a] := by
  rw [trailing_append, lastBlock_append_of_lastKey h, trailing, h]

theorem trailing_append_of_lastKey_ne (h : lastKey key l ≠ some (key a)) :
    trailing key (l ++ [a]) = [a] := by
  rw [trailing_append, lastBlock_append_of_lastKey_ne h]

theorem lastKey_of_mem_trailing (h : a ∈ trailing key l) : lastKey key l = some (key a) := by
  unfold trailing at h
  cases hkey : lastKey key l with
  | none => simp [hkey] at h
  | some k =>
    rw [hkey] at h
    have hk : key a = k := by simpa using List.mem_rtakeWhile_imp h
    rw [hk]

theorem trailing_suffix : trailing key l <:+ l := by
  induction l using List.reverseRecOn with
  | nil => exact List.suffix_rfl
  | append_singleton l a ih =>
    by_cases hkey : lastKey key l = some (key a)
    · rw [trailing_append_of_lastKey hkey]
      obtain ⟨t, ht⟩ := ih
      exact ⟨t, by rw [← List.append_assoc, ht]⟩
    · rw [trailing_append_of_lastKey_ne hkey]
      exact List.suffix_append l [a]

theorem length_trailing_le : (trailing key l).length ≤ l.length := trailing_suffix.length_le

theorem lastBlock_sublist : (lastBlock key k l).Sublist (l.filter fun a => key a = k) := by
  have hsub : (lastBlock key k l).Sublist l :=
    (List.rtakeWhile_suffix _ _).sublist.trans (List.rdropWhile_prefix _ _).sublist
  have hkeys : ∀ a ∈ lastBlock key k l, key a = k := fun a ha => by
    simpa using List.mem_rtakeWhile_imp ha
  have hall : (lastBlock key k l).filter (fun a => decide (key a = k)) = lastBlock key k l :=
    List.filter_eq_self.2 fun a ha => decide_eq_true (hkeys a ha)
  rw [← hall]
  exact hsub.filter _

/-! ### Counting key by key -/

/-- What has a property is counted key by key. -/
theorem sum_countP_filter {p : α → Bool} {ks : List κ} (hks : ks.Nodup)
    (h : ∀ a ∈ l, key a ∈ ks) :
    (ks.map fun k => (l.filter fun a => key a = k).countP p).sum = l.countP p := by
  induction l with
  | nil => simp
  | cons a l ih =>
    obtain ⟨ha, hl⟩ := List.forall_mem_cons.1 h
    have hstep : ∀ k, ((a :: l).filter fun a => key a = k).countP p =
        (l.filter fun a => key a = k).countP p + if key a = k then [a].countP p else 0 := by
      intro k
      by_cases hk : key a = k <;> simp [List.countP_cons, hk]
    simp only [hstep, List.sum_map_add, ih hl, Grouping.sum_map_ite hks ha]
    rw [Nat.add_comm, ← List.countP_append, List.singleton_append]

/-! ### Sequences ordered by key -/

section Sorted

variable {κ : Type} [LE κ] {key : α → κ} {k : κ} {l : List α} {a : α}

theorem pairwise_append_singleton (h : (l ++ [a]).Pairwise fun x y => key x ≤ key y) :
    l.Pairwise (fun x y => key x ≤ key y) ∧ ∀ x ∈ l, key x ≤ key a := by
  rw [List.pairwise_append] at h
  exact ⟨h.1, fun x hx => h.2.2 x hx a List.mem_cons_self⟩

variable [Std.IsPartialOrder κ]

/-- Before an element of another key, ordered sequences have smaller keys only. -/
theorem not_le_of_lastKey_ne (h : (l ++ [a]).Pairwise fun x y => key x ≤ key y)
    (hkey : lastKey key l ≠ some (key a)) : ∀ x ∈ l, ¬ key a ≤ key x := by
  obtain ⟨hl, ha⟩ := pairwise_append_singleton h
  induction l using List.reverseRecOn with
  | nil => simp
  | append_singleton l b _ =>
    have hb : ¬ key a ≤ key b := fun hab =>
      hkey (by rw [lastKey_append, Std.le_antisymm (ha b (by simp)) hab])
    intro x hx hax
    rcases List.mem_append.1 hx with hx | hx
    · exact hb (Std.le_trans hax ((pairwise_append_singleton hl).2 x hx))
    · rw [List.mem_singleton.1 hx] at hax
      exact hb hax

/-- The last key is the largest. -/
theorem le_of_lastKey (h : l.Pairwise fun x y => key x ≤ key y) (hlast : lastKey key l = some k) :
    ∀ x ∈ l, key x ≤ k := by
  obtain ⟨l, a, rfl, rfl⟩ := lastKey_eq_some key hlast
  intro x hx
  rcases List.mem_append.1 hx with hx | hx
  · exact (pairwise_append_singleton h).2 x hx
  · rw [List.mem_singleton.1 hx]
    exact Std.le_refl _

/-- A part at the beginning that has an element of the last key ends with this key. -/
theorem lastKey_of_mem {l' : List α} (h : (l ++ l').Pairwise fun x y => key x ≤ key y)
    (hlast : lastKey key (l ++ l') = some k) (ha : a ∈ l) (hkey : key a = k) :
    lastKey key l = some k := by
  cases hl : lastKey key l with
  | none =>
    have hnil : l = [] := by simpa [lastKey] using hl
    rw [hnil] at ha
    cases ha
  | some k' =>
    have hle : k ≤ k' := hkey ▸ le_of_lastKey (List.pairwise_append.1 h).1 hl a ha
    obtain ⟨l, b, rfl, rfl⟩ := lastKey_eq_some key hl
    have hb : key b ≤ k := le_of_lastKey h hlast b (by simp)
    rw [Std.le_antisymm hb hle]

variable [DecidableEq κ]

theorem lastBlock_eq_filter (h : l.Pairwise fun x y => key x ≤ key y) :
    lastBlock key k l = l.filter fun a => key a = k := by
  induction l using List.reverseRecOn with
  | nil => rfl
  | append_singleton l a ih =>
    obtain ⟨hl, -⟩ := pairwise_append_singleton h
    rw [List.filter_append]
    by_cases hk : key a = k
    · subst hk
      by_cases hkey : lastKey key l = some (key a)
      · rw [lastBlock_append_of_lastKey hkey, ih hl]
        simp
      · have hnone : l.filter (fun b => decide (key b = key a)) = [] := by
          refine List.filter_eq_nil_iff.2 fun b hb => ?_
          have hlt := not_le_of_lastKey_ne h hkey b hb
          have hne : key b ≠ key a := fun e => hlt (by rw [e]; exact Std.le_refl _)
          simpa using hne
        rw [lastBlock_append_of_lastKey_ne hkey, hnone]
        simp
    · rw [lastBlock_append_other hk, ih hl]
      simp [hk]

theorem through_eq_filter [DecidableLE κ] (h : l.Pairwise fun x y => key x ≤ key y)
    (hk : ∃ a ∈ l, key a = k) : through key k l = l.filter fun a => key a ≤ k := by
  induction l using List.reverseRecOn with
  | nil => rfl
  | append_singleton l a ih =>
    obtain ⟨hl, ha⟩ := pairwise_append_singleton h
    rw [List.filter_append]
    by_cases hak : key a = k
    · have hall : l.filter (fun b => decide (key b ≤ k)) = l :=
        List.filter_eq_self.2 fun b hb => by simpa [hak] using ha b hb
      rw [through_append_self hak, hall]
      simp [hak, Std.le_refl]
    · obtain ⟨b, hb, hbk⟩ := hk
      have hbl : b ∈ l := by
        rcases List.mem_append.1 hb with hb | hb
        · exact hb
        · rw [List.mem_singleton.1 hb] at hbk
          exact absurd hbk hak
      have hle : ¬ key a ≤ k := fun h => hak (Std.le_antisymm h (hbk ▸ ha b hbl))
      rw [through_append_other hak, ih hl ⟨b, hbl, hbk⟩]
      simp [hle]

end Sorted

end Blocks
