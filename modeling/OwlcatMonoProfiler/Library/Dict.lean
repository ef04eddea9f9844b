import Mathlib.Data.List.AList
import Mathlib.Tactic

/-!
# Finite maps with an iteration order

Mathlib's association lists, over a constant value type, as a model of a hash map: at most one
entry per key, and a list order that stands for the order in which an iteration meets the entries.
On top of `AList.insert`, `AList.erase` and `AList.lookup` this file has the operations an
imperative program applies to such a container:

* `Dict.emplace` (insert unless the key is present), `Dict.mapEntries` and `Dict.modify`
  (change values in place), `Dict.filterEntries` (erase while iterating);
* `Dict.total`, the sum of a measure over the values, after an insertion and an erasure.
-/

/-- A finite map; the order of `entries` is the iteration order. -/
abbrev Dict (κ υ : Type) := AList (fun _ : κ => υ)

namespace Dict

variable {κ υ ω : Type}

/-- Change every value, keeping the keys and their order. -/
def mapEntries (f : κ → υ → ω) (m : Dict κ υ) : Dict κ ω :=
  ⟨m.entries.map fun e => ⟨e.1, f e.1 e.2⟩, m.nodupKeys.map₂ f m.entries⟩

/-- Keep the entries that satisfy `p`, in their order. -/
def filterEntries (p : κ → υ → Bool) (m : Dict κ υ) : Dict κ υ :=
  ⟨m.entries.filter fun e => p e.1 e.2, m.nodupKeys.sublist List.filter_sublist⟩

/-- The values, in iteration order. -/
def values (m : Dict κ υ) : List υ := m.entries.map fun e => e.2

theorem entries_mapEntries (f : κ → υ → ω) (m : Dict κ υ) :
    (mapEntries f m).entries = m.entries.map fun e => ⟨e.1, f e.1 e.2⟩ :=
  rfl

@[simp] theorem keys_mapEntries (f : κ → υ → ω) (m : Dict κ υ) :
    (mapEntries f m).keys = m.keys := by
  simp [AList.keys, mapEntries, List.keys]

@[simp] theorem mem_mapEntries (f : κ → υ → ω) (m : Dict κ υ) (k : κ) :
    k ∈ mapEntries f m ↔ k ∈ m := by
  rw [AList.mem_keys, keys_mapEntries, ← AList.mem_keys]

variable [DecidableEq κ]

/-- Change the value at one key in place; nothing happens when the key is absent. -/
def modify (k : κ) (g : υ → υ) (m : Dict κ υ) : Dict κ υ :=
  mapEntries (fun k' v => if k' = k then g v else v) m

/-- Insert unless the key is already present. -/
def emplace (k : κ) (v : υ) (m : Dict κ υ) : Dict κ υ :=
  if k ∈ m then m else m.insert k v

/-! ### Lookups -/

@[simp] theorem lookup_mapEntries (f : κ → υ → ω) (m : Dict κ υ) (k : κ) :
    (mapEntries f m).lookup k = (m.lookup k).map (f k) :=
  List.dlookup_map₂ k

/-- Only what is done to the entries that are there matters. -/
theorem mapEntries_congr {f g : κ → υ → ω} {m : Dict κ υ}
    (h : ∀ k v, m.lookup k = some v → f k v = g k v) : mapEntries f m = mapEntries g m := by
  have hentries : (mapEntries f m).entries = (mapEntries g m).entries := by
    refine List.map_congr_left fun e he => ?_
    rw [h e.1 e.2 (AList.mem_lookup_iff.2 he)]
  exact AList.ext hentries

omit [DecidableEq κ] in
theorem mapEntries_id (m : Dict κ υ) : mapEntries (fun _ v => v) m = m := by
  simp [mapEntries]

omit [DecidableEq κ] in
theorem mapEntries_mapEntries {ρ : Type} (f : κ → υ → ω) (g : κ → ω → ρ) (m : Dict κ υ) :
    mapEntries g (mapEntries f m) = mapEntries (fun k v => g k (f k v)) m := by
  simp [mapEntries, Function.comp_def]

theorem mapEntries_insert (f : κ → υ → ω) (k : κ) (v : υ) (m : Dict κ υ) :
    mapEntries f (m.insert k v) = (mapEntries f m).insert k (f k v) := by
  have herase : (m.entries.kerase k).map (fun e => (⟨e.1, f e.1 e.2⟩ : Sigma fun _ : κ => ω)) =
      (m.entries.map fun e => (⟨e.1, f e.1 e.2⟩ : Sigma fun _ : κ => ω)).kerase k := by
    rw [List.kerase, List.kerase, List.eraseP_map]
    rfl
  exact AList.ext (congrArg (List.cons _) herase)

theorem entries_insert (k : κ) (v : υ) (m : Dict κ υ) :
    (m.insert k v).entries = ⟨k, v⟩ :: m.entries.filter fun e => e.1 ≠ k := by
  have herase : ∀ l : List (Sigma fun _ : κ => υ), l.NodupKeys →
      l.kerase k = l.filter fun e => e.1 ≠ k := by
    intro l hl
    induction l with
    | nil => rfl
    | cons e l ih =>
      obtain ⟨he, hl⟩ := List.nodupKeys_cons.1 hl
      by_cases hk : e.1 = k
      · have hall : ∀ e' ∈ l, e'.1 ≠ k := fun e' he' hk' =>
          he (hk.trans hk'.symm ▸ List.mem_keys_of_mem he')
        rw [List.kerase_cons_eq hk.symm, List.filter_cons_of_neg (by simpa using hk)]
        exact (List.filter_eq_self.2 fun e' he' => by simpa using hall e' he').symm
      · rw [List.kerase_cons_ne (Ne.symm hk), List.filter_cons_of_pos (by simpa using hk), ih hl]
  exact congrArg (List.cons _) (herase m.entries m.nodupKeys)

theorem lookup_modify_self (k : κ) (g : υ → υ) (m : Dict κ υ) :
    (modify k g m).lookup k = (m.lookup k).map g := by
  simp [modify]

theorem lookup_modify_ne {k k' : κ} (h : k' ≠ k) (g : υ → υ) (m : Dict κ υ) :
    (modify k g m).lookup k' = m.lookup k' := by
  simp [modify, h]

@[simp] theorem keys_modify (k : κ) (g : υ → υ) (m : Dict κ υ) : (modify k g m).keys = m.keys :=
  keys_mapEntries _ m

@[simp] theorem mem_modify (k : κ) (g : υ → υ) (m : Dict κ υ) (k' : κ) :
    k' ∈ modify k g m ↔ k' ∈ m :=
  mem_mapEntries _ m k'

@[simp] theorem lookup_filterEntries (p : κ → υ → Bool) (m : Dict κ υ) (k : κ) :
    (filterEntries p m).lookup k = (m.lookup k).filter (p k) := by
  ext v
  rw [← Option.mem_def, AList.mem_lookup_iff, Option.filter_eq_some_iff, ← Option.mem_def,
    AList.mem_lookup_iff]
  simp [filterEntries]

theorem mem_filterEntries (p : κ → υ → Bool) (m : Dict κ υ) (k : κ) :
    k ∈ filterEntries p m ↔ ∃ v, m.lookup k = some v ∧ p k v := by
  rw [← AList.lookup_isSome, lookup_filterEntries, Option.isSome_iff_exists]
  simp [Option.filter_eq_some_iff]

theorem mem_iff_lookup {k : κ} {m : Dict κ υ} : k ∈ m ↔ ∃ v, m.lookup k = some v := by
  rw [← AList.lookup_isSome, Option.isSome_iff_exists]

theorem mem_values {v : υ} {m : Dict κ υ} : v ∈ values m ↔ ∃ k, m.lookup k = some v := by
  constructor
  · intro h
    obtain ⟨⟨k, v'⟩, he, rfl⟩ := List.mem_map.1 h
    exact ⟨k, AList.mem_lookup_iff.2 he⟩
  · rintro ⟨k, hk⟩
    exact List.mem_map.2 ⟨⟨k, v⟩, AList.mem_lookup_iff.1 hk, rfl⟩

/-- Maps that agree at every key have the same entries, up to the iteration order. -/
theorem perm_of_lookup {m m' : Dict κ υ} (h : ∀ k, m.lookup k = m'.lookup k) :
    m.entries.Perm m'.entries :=
  List.lookup_ext m.nodupKeys m'.nodupKeys fun k v => by
    rw [show m.entries.dlookup k = m'.entries.dlookup k from h k]

/-- Maps with the same keys in the same order and the same values are the same. -/
theorem ext_keys {m m' : Dict κ υ} (hkeys : m.keys = m'.keys)
    (h : ∀ k, m.lookup k = m'.lookup k) : m = m' := by
  have hentries : ∀ m : Dict κ υ, m.entries.map some =
      m.keys.map fun k => (m.lookup k).map (Sigma.mk k) := by
    intro m
    show _ = (m.entries.map Sigma.fst).map _
    rw [List.map_map]
    refine List.map_congr_left fun e he => ?_
    have hlookup : m.lookup e.1 = some e.2 := AList.mem_lookup_iff.2 he
    rw [Function.comp_apply, hlookup]
    rfl
  refine AList.ext (List.map_injective_iff.2 (Option.some_injective _) ?_)
  rw [hentries, hentries, hkeys]
  exact List.map_congr_left fun k _ => by rw [h]

theorem emplace_of_notMem {k : κ} {m : Dict κ υ} (h : k ∉ m) (v : υ) :
    emplace k v m = m.insert k v :=
  if_neg h

theorem emplace_of_mem {k : κ} {m : Dict κ υ} (h : k ∈ m) (v : υ) : emplace k v m = m :=
  if_pos h

/-- Emplacing never changes an entry that is there. -/
theorem lookup_emplace (k : κ) (v : υ) (m : Dict κ υ) (k' : κ) :
    (emplace k v m).lookup k' = if k' = k then some ((m.lookup k).getD v) else m.lookup k' := by
  by_cases h : k ∈ m
  · obtain ⟨w, hw⟩ := mem_iff_lookup.1 h
    rw [emplace_of_mem h]
    split_ifs with hk
    · rw [hk, hw, Option.getD_some]
    · rfl
  · rw [emplace_of_notMem h, AList.lookup_eq_none.2 h]
    split_ifs with hk
    · rw [hk, AList.lookup_insert, Option.getD_none]
    · rw [AList.lookup_insert_ne hk]

@[simp] theorem mem_emplace (k : κ) (v : υ) (m : Dict κ υ) (k' : κ) :
    k' ∈ emplace k v m ↔ k' = k ∨ k' ∈ m := by
  by_cases h : k ∈ m
  · rw [emplace_of_mem h]
    exact ⟨Or.inr, fun hk => hk.elim (fun e => e ▸ h) id⟩
  · rw [emplace_of_notMem h, AList.mem_insert]

/-! ### Sums over the values -/

section Total

variable {M : Type} [AddCommMonoid M] (f : υ → M)

/-- The sum of `f` over the values. -/
def total (m : Dict κ υ) : M := (m.values.map f).sum

omit [DecidableEq κ] in
@[simp] theorem total_empty : total f (∅ : Dict κ υ) = 0 := rfl

theorem total_insert_of_notMem {k : κ} {m : Dict κ υ} (h : k ∉ m) (v : υ) :
    total f (m.insert k v) = f v + total f m := by
  unfold total values
  rw [AList.entries_insert_of_notMem h]
  rfl

/-- Taking one entry out of a list with distinct keys takes its share of the sum. -/
theorem sum_kerase {l : List (Sigma fun _ : κ => υ)} {k : κ} {v : υ}
    (h : l.dlookup k = some v) :
    f v + ((l.kerase k).map fun e => f e.2).sum = (l.map fun e => f e.2).sum := by
  induction l with
  | nil => simp at h
  | cons e l ih =>
    by_cases hk : k = e.1
    · subst hk
      rw [List.dlookup_cons_eq, Option.some.injEq] at h
      rw [List.kerase_cons_eq rfl, List.map_cons, List.sum_cons, h]
    · rw [List.dlookup_cons_ne _ _ hk] at h
      rw [List.kerase_cons_ne hk, List.map_cons, List.map_cons, List.sum_cons, List.sum_cons,
        ← ih h, add_left_comm]

theorem total_erase {k : κ} {v : υ} {m : Dict κ υ} (h : m.lookup k = some v) :
    f v + total f (m.erase k) = total f m := by
  have hentries : (m.erase k).entries = m.entries.kerase k := rfl
  have := sum_kerase f h
  simpa [total, values, hentries, Function.comp_def] using this

end Total

end Dict
