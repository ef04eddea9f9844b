import OwlcatMonoProfiler.Library.Grouping

/-!
# A bounded list of recent uses

A list that keeps what was last used with each key, as long as it is among the `n` latest: a new
element takes the place of the one with its key, or is put at the end, and then the list is sorted,
the latest elements first, and cut off.  Elements of the same time may end up in any order.

* `lastUse`: what was last used with a key;
* `Latest`, `Latest.use`: the elements are the last ones of their keys;
* `Exhaustive`, `Exhaustive.use`: nothing is missing that is later than what is there;
* `Latest.trim`, `Exhaustive.trim`: sorting and cutting off.
-/

namespace Recent

open Grouping

variable {σ κ τ : Type} [DecidableEq κ] {key : σ → κ}

/-! ### Uses -/

variable (key) in
/-- What was last used with a key. -/
def lastUse (uses : List σ) (k : κ) : Option σ := uses.reverse.find? fun r => key r = k

theorem lastUse_append_self (uses : List σ) (r : σ) :
    lastUse key (uses ++ [r]) (key r) = some r := by
  simp [lastUse]

theorem lastUse_append_ne {uses : List σ} {r : σ} {k : κ} (h : key r ≠ k) :
    lastUse key (uses ++ [r]) k = lastUse key uses k := by
  simp [lastUse, h]

theorem lastUse_eq_some {uses : List σ} {r : σ} {k : κ} (h : lastUse key uses k = some r) :
    r ∈ uses ∧ key r = k :=
  ⟨List.mem_reverse.1 (List.mem_of_find?_eq_some h), by simpa using List.find?_some h⟩

/-! ### Putting an element into the list -/

/-- Only what is put in for the key matters. -/
theorem upsert_congr {k : κ} {put : Option σ → σ} (put' : Option σ → σ) (rows : List σ)
    (hsome : ∀ g, key g = k → put (some g) = put' (some g)) (hnone : put none = put' none) :
    upsert key k put rows = upsert key k put' rows := by
  induction rows with
  | nil => rw [upsert, upsert, hnone]
  | cons g rows ih =>
    rw [upsert, upsert, ih]
    split_ifs with hkey
    · rw [hsome g hkey]
    · rfl

theorem length_le_upsert (k : κ) (put : Option σ → σ) (rows : List σ) :
    rows.length ≤ (upsert key k put rows).length := by
  induction rows with
  | nil => exact Nat.zero_le _
  | cons g rows ih =>
    rw [upsert]
    split_ifs
    · exact Nat.le_refl _
    · exact Nat.succ_le_succ ih

/-- It takes the place of the element with its key. -/
theorem mem_upsert {r q : σ} {rows : List σ} (hnodup : (rows.map key).Nodup) :
    q ∈ upsert key (key r) (fun _ => r) rows ↔ q = r ∨ q ∈ rows ∧ key q ≠ key r := by
  induction rows with
  | nil => simp [upsert]
  | cons g rows ih =>
    obtain ⟨hg, hrows⟩ := List.nodup_cons.1 hnodup
    rw [upsert]
    split_ifs with hkey
    · have hne : ∀ x ∈ rows, key x ≠ key r := fun x hx he =>
        hg (by rw [hkey, ← he]; exact List.mem_map_of_mem hx)
      rw [List.mem_cons, List.mem_cons]
      constructor
      · rintro (rfl | hq)
        · exact Or.inl rfl
        · exact Or.inr ⟨Or.inr hq, hne q hq⟩
      · rintro (rfl | ⟨rfl | hq, hq'⟩)
        · exact Or.inl rfl
        · exact absurd hkey hq'
        · exact Or.inr hq
    · rw [List.mem_cons, ih hrows, List.mem_cons]
      constructor
      · rintro (rfl | rfl | ⟨hq, hq'⟩)
        · exact Or.inr ⟨Or.inl rfl, hkey⟩
        · exact Or.inl rfl
        · exact Or.inr ⟨Or.inr hq, hq'⟩
      · rintro (rfl | ⟨rfl | hq, hq'⟩)
        · exact Or.inr (Or.inl rfl)
        · exact Or.inl rfl
        · exact Or.inr (Or.inr ⟨hq, hq'⟩)

theorem nodup_upsert {r : σ} {rows : List σ} (hnodup : (rows.map key).Nodup) :
    ((upsert key (key r) (fun _ => r) rows).map key).Nodup := by
  induction rows with
  | nil => simp [upsert]
  | cons g rows ih =>
    obtain ⟨hg, hrows⟩ := List.nodup_cons.1 hnodup
    rw [upsert]
    split_ifs with hkey
    · rw [List.map_cons, ← hkey]
      exact hnodup
    · rw [List.map_cons, List.nodup_cons]
      refine ⟨fun hmem => ?_, ih hrows⟩
      obtain ⟨q, hq, hqg⟩ := List.mem_map.1 hmem
      rcases (mem_upsert hrows).1 hq with rfl | ⟨hq, -⟩
      · exact hkey hqg.symm
      · exact hg (hqg ▸ List.mem_map_of_mem hq)

/-! ### The list -/

variable (key) in
/-- Each element is the last one of its key, and the only one in the list. -/
structure Latest (uses rows : List σ) : Prop where
  nodup : (rows.map key).Nodup
  latest : ∀ r ∈ rows, lastUse key uses (key r) = some r

theorem Latest.use {uses rows : List σ} (h : Latest key uses rows) (r : σ) :
    Latest key (uses ++ [r]) (upsert key (key r) (fun _ => r) rows) := by
  refine ⟨nodup_upsert h.nodup, fun q hq => ?_⟩
  rcases (mem_upsert h.nodup).1 hq with rfl | ⟨hq, hne⟩
  · exact lastUse_append_self uses q
  · rw [lastUse_append_ne (Ne.symm hne)]
    exact h.latest q hq

theorem Latest.trim {uses rows sorted : List σ} (h : Latest key uses rows)
    (hperm : sorted.Perm rows) (n : ℕ) : Latest key uses (sorted.take n) := by
  refine ⟨?_, fun r hr => h.latest r (hperm.subset (List.mem_of_mem_take hr))⟩
  rw [List.map_take]
  exact ((hperm.map key).nodup_iff.2 h.nodup).sublist (List.take_sublist _ _)

section Time

variable [LE τ] {time : σ → τ}

variable (key time) in
/-- What is missing is not later than anything in the list, which has no place left. -/
def Exhaustive (n : ℕ) (uses rows : List σ) : Prop :=
  ∀ k r, lastUse key uses k = some r → r ∈ rows ∨ n ≤ rows.length ∧ ∀ q ∈ rows, time r ≤ time q

/-- An element is used that is not earlier than those before. -/
theorem Exhaustive.use {n : ℕ} {uses rows : List σ} (h : Exhaustive key time n uses rows)
    (hnodup : (rows.map key).Nodup) {r : σ} (hr : ∀ q ∈ uses, time q ≤ time r) :
    Exhaustive key time n (uses ++ [r]) (upsert key (key r) (fun _ => r) rows) := by
  intro k x hx
  by_cases hk : key r = k
  · rw [← hk, lastUse_append_self, Option.some.injEq] at hx
    exact Or.inl ((mem_upsert hnodup).2 (Or.inl hx.symm))
  · rw [lastUse_append_ne hk] at hx
    obtain ⟨hmem, hkey⟩ := lastUse_eq_some hx
    rcases h k x hx with hrows | ⟨hfull, hle⟩
    · exact Or.inl ((mem_upsert hnodup).2 (Or.inr ⟨hrows, hkey ▸ Ne.symm hk⟩))
    · refine Or.inr ⟨hfull.trans (length_le_upsert _ _ rows), fun q hq => ?_⟩
      rcases (mem_upsert hnodup).1 hq with rfl | ⟨hq, -⟩
      · exact hr x hmem
      · exact hle q hq

theorem Exhaustive.trim {n : ℕ} {uses rows sorted : List σ} (h : Exhaustive key time n uses rows)
    (hperm : sorted.Perm rows) (hsorted : sorted.Pairwise fun r q => time q ≤ time r) :
    Exhaustive key time n uses (sorted.take n) := by
  intro k r hr
  rcases h k r hr with hrows | ⟨hfull, hle⟩
  · have hmem : r ∈ sorted.take n ++ sorted.drop n := by
      rw [List.take_append_drop]
      exact hperm.symm.subset hrows
    rcases List.mem_append.1 hmem with htake | hdrop
    · exact Or.inl htake
    · -- it is cut off
      have hlen : n ≤ sorted.length := by
        by_contra hlt
        rw [List.drop_eq_nil_of_le (by omega)] at hdrop
        cases hdrop
      rw [← List.take_append_drop n sorted, List.pairwise_append] at hsorted
      exact Or.inr ⟨by rw [List.length_take, Nat.min_eq_left hlen],
        fun q hq => hsorted.2.2 q hq r hdrop⟩
  · refine Or.inr ⟨?_, fun q hq => hle q (hperm.subset (List.mem_of_mem_take hq))⟩
    rw [List.length_take, Nat.min_eq_left (hfull.trans_eq hperm.length_eq.symm)]

end Time

end Recent
