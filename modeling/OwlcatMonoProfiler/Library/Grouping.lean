import Mathlib.Data.List.Nodup
import Mathlib.Tactic
import OwlcatMonoProfiler.Library.Dict

/-!
# Grouping in one pass

A loop over a list that keeps a list of groups: an element is put into the group with its key, and
a new group is added at the end when there is none.

* `upsert`: what is done for one element;
* `groupBy`: the loop;
* `groupBy_eq`: the groups are those of the keys in the order in which they first occur, each made
  of the elements with its key;
* `sum_withKey`: sums over all elements are sums over the groups;
* `flatMap_groups_perm`: the groups hold every value as often as it occurs;
* `groups`: keys and values of the groups, which depend on those of the elements only piece by piece
  (`groups_append`);
* `upsert_eq_findIdx?`, `Indexed`: the two ways of finding a group, by a search and by a map from
  keys to indices.
-/

namespace Grouping

variable {α β κ : Type}

/-! ### Keys in the order of their first occurrence -/

section EraseDups

variable [BEq κ] [LawfulBEq κ]

theorem eraseDups_append_singleton (l : List κ) (k : κ) :
    (l ++ [k]).eraseDups = l.eraseDups ++ if k ∈ l then [] else [k] := by
  have hsingle : [k].eraseDups = [k] := by simp [List.eraseDups_cons]
  rw [List.eraseDups_append]
  by_cases h : k ∈ l <;> simp [List.removeAll, h, hsingle]

theorem nodup_eraseDups (l : List κ) : l.eraseDups.Nodup := by
  induction l using List.reverseRecOn with
  | nil => exact List.nodup_nil
  | append_singleton l k ih =>
    rw [eraseDups_append_singleton]
    split_ifs with h
    · rwa [List.append_nil]
    · rw [List.nodup_append]
      refine ⟨ih, List.nodup_singleton k, fun x hx y hy hxy => h ?_⟩
      rw [List.mem_singleton.1 hy] at hxy
      exact List.mem_eraseDups.1 (hxy ▸ hx)

end EraseDups

/-! ### One element -/

section Upsert

variable [DecidableEq κ] (key : β → κ)

/-- Put something into the first group with key `k`, or into a new group at the end. -/
def upsert (k : κ) (put : Option β → β) : List β → List β
  | [] => [put none]
  | g :: gs => if key g = k then put (some g) :: gs else g :: upsert k put gs

variable {key} {k : κ} {put : Option β → β} {gs : List β}

theorem upsert_of_notMem (h : k ∉ gs.map key) : upsert key k put gs = gs ++ [put none] := by
  induction gs with
  | nil => rfl
  | cons g gs ih =>
    rw [List.map_cons, List.mem_cons, not_or] at h
    rw [upsert, if_neg (Ne.symm h.1), ih h.2]
    rfl

/-- The search of a loop: the first group with the key is changed where it stands. -/
theorem upsert_eq_findIdx? :
    upsert key k put gs = match gs.findIdx? fun g => key g = k with
      | none => gs ++ [put none]
      | some i => gs.modify i fun g => put (some g) := by
  induction gs with
  | nil => rfl
  | cons g gs ih =>
    by_cases hg : key g = k
    · simp [upsert, List.findIdx?_cons, hg]
    · rw [upsert, if_neg hg, ih]
      cases hi : gs.findIdx? fun g => key g = k <;> simp [List.findIdx?_cons, hg, hi]

/-- When the groups are those of different keys, the group of `k` is the one that changes. -/
theorem upsert_map {ks : List κ} {group : κ → β} (hkey : ∀ k, key (group k) = k)
    (hks : ks.Nodup) (hmem : k ∈ ks) :
    upsert key k put (ks.map group) =
      ks.map fun k' => if k' = k then put (some (group k)) else group k' := by
  induction ks with
  | nil => cases hmem
  | cons k' ks ih =>
    obtain ⟨hnot, hks⟩ := List.nodup_cons.1 hks
    rw [List.map_cons, upsert, hkey, List.map_cons]
    by_cases hk : k' = k
    · subst hk
      rw [if_pos rfl, if_pos rfl]
      congr 1
      refine List.map_congr_left fun x hx => ?_
      rw [if_neg fun he : x = k' => hnot (he ▸ hx)]
    · rw [if_neg hk, if_neg hk, ih hks ((List.mem_cons.1 hmem).resolve_left (Ne.symm hk))]

end Upsert

/-! ### The loop -/

section GroupBy

variable [DecidableEq κ] (keyOf : α → κ) (key : β → κ) (put : α → Option β → β)

/-- Put the elements of a list into groups, one after the other. -/
def groupBy (l : List α) : List β :=
  l.foldl (fun gs a => upsert key (keyOf a) (put a) gs) []

/-- The elements with a key. -/
def withKey (k : κ) (l : List α) : List α := l.filter fun a => keyOf a = k

variable {keyOf key put}

theorem groupBy_append_singleton (l : List α) (a : α) :
    groupBy keyOf key put (l ++ [a]) =
      upsert key (keyOf a) (put a) (groupBy keyOf key put l) :=
  List.foldl_append

theorem withKey_append_singleton (k : κ) (l : List α) (a : α) :
    withKey keyOf k (l ++ [a]) = withKey keyOf k l ++ if keyOf a = k then [a] else [] := by
  rw [withKey, List.filter_append]
  by_cases h : keyOf a = k <;> simp [withKey, h]

theorem mem_withKey {k : κ} {l : List α} {a : α} :
    a ∈ withKey keyOf k l ↔ a ∈ l ∧ keyOf a = k := by
  rw [withKey, List.mem_filter, decide_eq_true_iff]

theorem withKey_eq_nil {k : κ} {l : List α} : withKey keyOf k l = [] ↔ k ∉ l.map keyOf := by
  simp [withKey, List.filter_eq_nil_iff]

/-- **The groups of a list**, when `make k l` is the group of the elements `l` with key `k`: there
is one for each key, in the order of the first occurrences, and it is made of the elements with this
key. -/
theorem groupBy_eq [BEq κ] [LawfulBEq κ] {make : κ → List α → β} (hkey : ∀ k l, key (make k l) = k)
    (hnew : ∀ a, put a none = make (keyOf a) [a])
    (hput : ∀ a l, l ≠ [] → put a (some (make (keyOf a) l)) = make (keyOf a) (l ++ [a]))
    (l : List α) :
    groupBy keyOf key put l = (l.map keyOf).eraseDups.map fun k => make k (withKey keyOf k l) := by
  induction l using List.reverseRecOn with
  | nil => rfl
  | append_singleton l a ih =>
    rw [groupBy_append_singleton, ih, List.map_append, List.map_singleton,
      eraseDups_append_singleton]
    have hother : ∀ k, keyOf a ≠ k → withKey keyOf k (l ++ [a]) = withKey keyOf k l := by
      intro k hk
      rw [withKey_append_singleton, if_neg hk, List.append_nil]
    split_ifs with h
    · -- the key is known: its group is the one that changes
      have hgroup : ∀ k, key (make k (withKey keyOf k l)) = k := fun k => hkey k _
      rw [upsert_map hgroup (nodup_eraseDups _) (List.mem_eraseDups.2 h), List.append_nil]
      refine List.map_congr_left fun k _ => ?_
      split_ifs with hk
      · have hne : withKey keyOf (keyOf a) l ≠ [] := fun hnil => withKey_eq_nil.1 hnil h
        rw [hput _ _ hne, hk, withKey_append_singleton, if_pos rfl]
      · rw [hother k (Ne.symm hk)]
    · -- the key is new: nothing was collected for it so far
      have hnot : keyOf a ∉
          ((l.map keyOf).eraseDups.map fun k => make k (withKey keyOf k l)).map key := by
        rw [List.map_map]
        intro hmem
        obtain ⟨k, hk, heq⟩ := List.mem_map.1 hmem
        rw [Function.comp_apply, hkey] at heq
        exact h (heq ▸ List.mem_eraseDups.1 hk)
      rw [upsert_of_notMem hnot, List.map_append, List.map_singleton, hnew,
        withKey_append_singleton, if_pos rfl, withKey_eq_nil.2 h, List.nil_append]
      congr 1
      refine List.map_congr_left fun k hk => ?_
      rw [hother k fun he => h (he ▸ List.mem_eraseDups.1 hk)]

/-- Adding to one of the terms adds to the sum. -/
theorem sum_map_ite {M : Type} [AddCommMonoid M] {ks : List κ} (hks : ks.Nodup) {k : κ}
    (hk : k ∈ ks) (c : M) : (ks.map fun k' => if k = k' then c else 0).sum = c := by
  induction ks with
  | nil => cases hk
  | cons k' ks ih =>
    obtain ⟨hnot, hks⟩ := List.nodup_cons.1 hks
    rw [List.map_cons, List.sum_cons]
    rcases List.mem_cons.1 hk with rfl | hmem
    · have hzero : (ks.map fun k' => if k = k' then c else 0).sum = 0 := by
        refine List.sum_eq_zero fun x hx => ?_
        obtain ⟨k', hk', rfl⟩ := List.mem_map.1 hx
        exact if_neg fun he : k = k' => hnot (he ▸ hk')
      rw [if_pos rfl, hzero, add_zero]
    · rw [if_neg fun he : k = k' => hnot (he ▸ hmem), ih hks hmem, zero_add]

/-- What is summed over the elements can be summed group by group. -/
theorem sum_withKey {M : Type} [AddCommMonoid M] (keyOf : α → κ) (l : List α) {ks : List κ}
    (hks : ks.Nodup) (h : ∀ a ∈ l, keyOf a ∈ ks) (f : α → M) :
    (ks.map fun k => ((withKey keyOf k l).map f).sum).sum = (l.map f).sum := by
  induction l using List.reverseRecOn with
  | nil =>
    refine List.sum_eq_zero fun x hx => ?_
    obtain ⟨k, -, rfl⟩ := List.mem_map.1 hx
    rfl
  | append_singleton l a ih =>
    have hstep : ∀ k, ((withKey keyOf k (l ++ [a])).map f).sum =
        ((withKey keyOf k l).map f).sum + if keyOf a = k then f a else 0 := by
      intro k
      rw [withKey_append_singleton]
      by_cases hk : keyOf a = k <;> simp [hk]
    simp only [hstep, List.sum_map_add]
    rw [ih fun b hb => h b (List.mem_append_left _ hb), sum_map_ite hks (h a (by simp)),
      List.map_append, List.sum_append, List.map_singleton, List.sum_singleton]

end GroupBy

/-! ### What the groups show -/

section Groups

variable [DecidableEq κ] [BEq κ] [LawfulBEq κ] {ω : Type} {keyOf : α → κ} {val : α → ω}

omit [DecidableEq κ] in
theorem eraseDups_append_eq (l m : List κ) :
    (l ++ m).eraseDups = l.eraseDups ++ m.eraseDups.filter fun k => !l.contains k := by
  induction m using List.reverseRecOn with
  | nil => rw [List.append_nil, List.eraseDups_nil, List.filter_nil, List.append_nil]
  | append_singleton m k ih =>
    rw [← List.append_assoc, eraseDups_append_singleton, ih, eraseDups_append_singleton,
      List.filter_append, List.append_assoc]
    congr 2
    by_cases hm : k ∈ m
    · simp [hm]
    · by_cases hl : k ∈ l <;> simp [hm, hl]

/-- The keys in the order of their first occurrence, each with the values of its elements. -/
def groups (keyOf : α → κ) (val : α → ω) (l : List α) : List (κ × List ω) :=
  (l.map keyOf).eraseDups.map fun k => (k, (withKey keyOf k l).map val)

omit [LawfulBEq κ] in
@[simp] theorem map_fst_groups (l : List α) :
    (groups keyOf val l).map Prod.fst = (l.map keyOf).eraseDups := by
  rw [groups, List.map_map]
  exact List.map_id _

theorem groups_eq_iff {l l' : List α} : groups keyOf val l = groups keyOf val l' ↔
    (l.map keyOf).eraseDups = (l'.map keyOf).eraseDups ∧
      ∀ k, (withKey keyOf k l).map val = (withKey keyOf k l').map val := by
  constructor
  · intro h
    have hkeys : (l.map keyOf).eraseDups = (l'.map keyOf).eraseDups := by
      rw [← map_fst_groups l, h, map_fst_groups]
    refine ⟨hkeys, fun k => ?_⟩
    by_cases hk : k ∈ (l.map keyOf).eraseDups
    · rw [groups, groups, ← hkeys] at h
      exact congrArg Prod.snd (List.map_inj_left.1 h k hk)
    · have hnil : ∀ m : List α, k ∉ (m.map keyOf).eraseDups → withKey keyOf k m = [] :=
        fun m hm => withKey_eq_nil.2 fun hmem => hm (List.mem_eraseDups.2 hmem)
      rw [hnil l hk, hnil l' (hkeys ▸ hk)]
  · rintro ⟨hkeys, hvals⟩
    rw [groups, groups, hkeys]
    exact List.map_congr_left fun k _ => congrArg (Prod.mk k) (hvals k)

omit [LawfulBEq κ] in
/-- Nothing but keys and values matters. -/
theorem groups_congr {l l' : List α}
    (h : (l.map fun a => (keyOf a, val a)) = l'.map fun a => (keyOf a, val a)) :
    groups keyOf val l = groups keyOf val l' := by
  have hpairs : ∀ m : List α, groups keyOf val m =
      groups Prod.fst Prod.snd (m.map fun a => (keyOf a, val a)) := by
    intro m
    rw [groups, groups, List.map_map]
    refine List.map_congr_left fun k _ => ?_
    rw [withKey, withKey, List.filter_map, List.map_map]
    rfl
  rw [hpairs l, h, ← hpairs l']

theorem groups_append {l l' m m' : List α} (hl : groups keyOf val l = groups keyOf val l')
    (hm : groups keyOf val m = groups keyOf val m') :
    groups keyOf val (l ++ m) = groups keyOf val (l' ++ m') := by
  obtain ⟨hlkeys, hlvals⟩ := groups_eq_iff.1 hl
  obtain ⟨hmkeys, hmvals⟩ := groups_eq_iff.1 hm
  refine groups_eq_iff.2 ⟨?_, fun k => ?_⟩
  · have hcontains : ∀ k, (l.map keyOf).contains k = (l'.map keyOf).contains k := by
      intro k
      rw [Bool.eq_iff_iff, List.contains_iff_mem, List.contains_iff_mem, ← List.mem_eraseDups,
        hlkeys, List.mem_eraseDups]
    rw [List.map_append, List.map_append, eraseDups_append_eq, eraseDups_append_eq, hlkeys, hmkeys]
    simp only [hcontains]
  · rw [withKey, withKey, List.filter_append, List.filter_append, List.map_append, List.map_append]
    exact congrArg₂ (· ++ ·) (hlvals k) (hmvals k)

theorem groups_flatMap {l : List β} {f g : β → List α}
    (h : ∀ b ∈ l, groups keyOf val (f b) = groups keyOf val (g b)) :
    groups keyOf val (l.flatMap f) = groups keyOf val (l.flatMap g) := by
  induction l with
  | nil => rfl
  | cons b l ih =>
    rw [List.flatMap_cons, List.flatMap_cons]
    exact groups_append (h b List.mem_cons_self) (ih fun c hc => h c (List.mem_cons_of_mem b hc))

/-- The groups hold the values of all elements, as often as these occur. -/
theorem flatMap_groups_perm (l : List α) :
    ((groups keyOf val l).flatMap Prod.snd).Perm (l.map val) := by
  have hsingle : ∀ m : List α, (m.map fun a => ({val a} : Multiset ω)).sum = ↑(m.map val) := by
    intro m
    rw [← Function.comp_def (g := val), ← List.map_map, ← Multiset.sum_coe, ← Multiset.map_coe,
      Multiset.sum_map_singleton]
  have hsum := sum_withKey keyOf l (nodup_eraseDups (l.map keyOf))
    (fun a ha => List.mem_eraseDups.2 (List.mem_map_of_mem ha)) fun a => ({val a} : Multiset ω)
  rw [hsingle] at hsum
  simp only [hsingle] at hsum
  rw [← Multiset.coe_eq_coe, ← hsum, ← Multiset.coe_bind, groups, Multiset.bind, Multiset.map_coe,
    List.map_map, Multiset.join, Multiset.sum_coe]
  rfl

end Groups

/-! ### Groups found by a map of indices -/

/-- The map gives the index of the group of each key. -/
def Indexed (key : β → κ) (gs : List β) (index : κ → Option ℕ) : Prop :=
  ∀ k i, index k = some i ↔ (gs.map key)[i]? = some k

namespace Indexed

variable {key : β → κ} {gs : List β} {index : κ → Option ℕ} {k : κ} {i : ℕ}

theorem nil : Indexed key [] fun _ => none := fun k i => by simp

theorem notMem (h : Indexed key gs index) (hk : index k = none) : k ∉ gs.map key := by
  intro hmem
  obtain ⟨i, hi⟩ := List.mem_iff_getElem?.1 hmem
  rw [(h k i).2 hi] at hk
  cases hk

/-- A new group at the end, and its index. -/
theorem insert [DecidableEq κ] {m : Dict κ ℕ} (h : Indexed key gs m.lookup) {g : β}
    (hk : m.lookup (key g) = none) :
    Indexed key (gs ++ [g]) (m.insert (key g) gs.length).lookup := by
  intro k i
  have hnot := h.notMem hk
  show (m.insert (key g) gs.length).lookup k = some i ↔ ((gs ++ [g]).map key)[i]? = some k
  rw [List.map_append, List.map_singleton]
  by_cases hkg : k = key g
  · subst hkg
    rw [AList.lookup_insert, Option.some.injEq]
    constructor
    · rintro rfl
      rw [List.getElem?_append_right (by rw [List.length_map]), List.length_map, Nat.sub_self]
      rfl
    · intro hi
      rcases Nat.lt_or_ge i gs.length with hlt | hge
      · rw [List.getElem?_append_left (by rwa [List.length_map])] at hi
        exact absurd (List.mem_of_getElem? hi) hnot
      · have hlt := (List.getElem?_eq_some_iff.1 hi).1
        rw [List.length_append, List.length_map, List.length_singleton] at hlt
        omega
  · rw [AList.lookup_insert_ne hkg, show m.lookup k = some i ↔ _ from h k i]
    rcases Nat.lt_or_ge i gs.length with hlt | hge
    · rw [List.getElem?_append_left (by rwa [List.length_map])]
    · have hnone : (gs.map key)[i]? = none := by
        rw [List.getElem?_eq_none_iff, List.length_map]
        exact hge
      rw [hnone, List.getElem?_append_right (by rwa [List.length_map])]
      constructor
      · intro hi
        cases hi
      · intro hi
        have hmem := List.mem_of_getElem? hi
        rw [List.mem_singleton] at hmem
        exact absurd hmem hkg

/-- Changing the group the map points to is what `upsert` does. -/
theorem modify_eq [DecidableEq κ] (h : Indexed key gs index) (hi : index k = some i)
    (put : Option β → β) :
    gs.modify i (fun g => put (some g)) = upsert key k put gs := by
  have hget := (h k i).1 hi
  have hfirst : gs.findIdx? (fun g => key g = k) = some i := by
    obtain ⟨hlt, heq⟩ := List.getElem?_eq_some_iff.1 hget
    rw [List.length_map] at hlt
    rw [List.getElem_map] at heq
    rw [List.findIdx?_eq_some_iff_getElem]
    refine ⟨hlt, decide_eq_true heq, fun j hj hjk => ?_⟩
    -- no other group has this key, since the map has only one index for it
    have hj' : (gs.map key)[j]? = some k := by
      rw [List.getElem?_map, List.getElem?_eq_getElem (hj.trans hlt), Option.map_some,
        of_decide_eq_true hjk]
    have hij := ((h k j).2 hj').symm.trans hi
    rw [Option.some.injEq] at hij
    omega
  rw [upsert_eq_findIdx?, hfirst]

theorem modify_length_append (gs : List β) (g : β) (f : β → β) :
    (gs ++ [g]).modify gs.length f = gs ++ [f g] := by
  induction gs with
  | nil => rfl
  | cons g' gs ih => rw [List.cons_append, List.length_cons, List.modify_succ_cons, ih]; rfl

/-- A change of groups that leaves their keys alone leaves the indices right. -/
theorem modify (h : Indexed key gs index) {f : β → β} (hf : ∀ g, key (f g) = key g) (i : ℕ) :
    Indexed key (gs.modify i f) index := by
  have hmap : (gs.modify i f).map key = gs.map key := by
    refine List.ext_getElem? fun j => ?_
    rw [List.getElem?_map, List.getElem?_map, List.getElem?_modify]
    cases gs[j]? with
    | none => rfl
    | some g =>
      by_cases hij : i = j <;> simp [hij, hf]
  intro k j
  rw [hmap]
  exact h k j

end Indexed

end Grouping
