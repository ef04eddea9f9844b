import Mathlib.Tactic

/-!
# Vectors, load by load

A vector of objects as its members and the slots of its storage, for programs in which two threads
use it without a lock.  `push_back` and `erase` are sequences of loads and stores, between which the
other thread may do anything.

* `RawVector`: the storage, and the member that says how many of its slots are in use;
* `load`, `moveDown`, `truncate`: the accesses of a search and of `erase`;
* `PushBack`: how far a call of `push_back` has come, and its next access;
* `Holds`, `Staged`, `Gap`: a vector between two operations, before the last store of `push_back`,
  and in the middle of `erase`; what each access makes of them when no other comes between.
-/

/-- A vector.  A slot without an object is raw memory, or its object was destroyed or moved from;
to use it is undefined.  The storage is replaced when it is full, and `generation` counts this:
pointers into an earlier storage dangle. -/
structure RawVector (α : Type) where
  slots : List (Option α) := []
  finish : ℕ := 0
  generation : ℕ := 0

/-- How far `push_back` has come: the end was loaded, the new object is in its slot, or the objects
are in a new storage. -/
inductive PushBack (α : Type)
  | loaded (a : α) (finish : ℕ)
  | constructed (a : α) (finish : ℕ)
  | replaced (a : α) (slots : List (Option α)) (finish : ℕ)

/-- The object that is pushed. -/
def PushBack.object {α : Type} : PushBack α → α
  | .loaded a _ | .constructed a _ | .replaced a _ _ => a

namespace RawVector

variable {α : Type}

/-- The objects of the vector. -/
def contents (v : RawVector α) : List α := (v.slots.take v.finish).filterMap id

/-- Read an object through a pointer; `none` when this is undefined. -/
def load (v : RawVector α) (generation i : ℕ) : Option α :=
  if generation = v.generation then v.slots[i]?.join else none

/-- Move an object into the slot before its own. -/
def moveDown (v : RawVector α) (generation i : ℕ) : Option (RawVector α) :=
  (v.load generation (i + 1)).map fun a =>
    { v with slots := (v.slots.set i (some a)).set (i + 1) none }

/-- Store a smaller end, a pointer, and destroy the object behind it; `none` when the pointer is
into another storage. -/
def truncate (v : RawVector α) (generation finish : ℕ) : Option (RawVector α) :=
  if generation = v.generation then
    some { v with slots := v.slots.set finish none, finish := finish }
  else none

/-- The next access of `push_back`, and how far it has come then; `spare` is how many slots a new
storage has beyond those that are needed. -/
def push (spare : ℕ → ℕ) (v : RawVector α) : PushBack α → Option (Option (PushBack α) × RawVector α)
  | .loaded a n =>
    if n < v.slots.length then
      some (some (.constructed a n), { v with slots := v.slots.set n (some a) })
    else if (v.slots.take n).all Option.isSome then
      some (some (.replaced a (v.slots.take n ++ some a :: List.replicate (spare n) none) n), v)
    else none
  | .constructed _ n => some (none, { v with finish := n + 1 })
  | .replaced _ slots n => some (none, ⟨slots, n + 1, v.generation + 1⟩)

/-! ### Between two operations -/

/-- The vector holds these objects. -/
def Holds (v : RawVector α) (l : List α) : Prop :=
  v.finish = l.length ∧ ∃ rest, v.slots = l.map some ++ rest

/-- It does, and another object is in the slot behind them. -/
def Staged (v : RawVector α) (l : List α) (a : α) : Prop :=
  v.finish = l.length ∧ ∃ rest, v.slots = (l ++ [a]).map some ++ rest

/-- There is one slot to be filled between two parts of the vector. -/
def Gap (v : RawVector α) (before behind : List α) : Prop :=
  v.finish = before.length + 1 + behind.length ∧
    ∃ x rest, v.slots = before.map some ++ x :: (behind.map some ++ rest)

variable {v : RawVector α} {l : List α} {a : α}

theorem holds_empty : ({} : RawVector α).Holds [] := ⟨rfl, [], rfl⟩

theorem Holds.contents_eq (h : v.Holds l) : v.contents = l := by
  obtain ⟨hfinish, rest, hslots⟩ := h
  have hlen : l.length = (l.map some).length := (List.length_map some).symm
  rw [contents, hfinish, hslots, hlen, List.take_left, List.filterMap_map]
  exact List.filterMap_some

theorem Holds.load (h : v.Holds l) {i : ℕ} (hi : i < l.length) :
    v.load v.generation i = l[i]? := by
  obtain ⟨-, rest, hslots⟩ := h
  have hi' : i < (l.map some).length := by rwa [List.length_map]
  rw [RawVector.load, if_pos rfl, hslots, List.getElem?_append_left hi', List.getElem?_map,
    List.getElem?_eq_getElem hi]
  rfl

/-! ### `push_back` -/

theorem Staged.holds (h : v.Staged l a) : v.Holds l := by
  obtain ⟨hfinish, rest, hslots⟩ := h
  refine ⟨hfinish, some a :: rest, ?_⟩
  rw [hslots, List.map_append, List.append_assoc]
  rfl

theorem Staged.store (h : v.Staged l a) :
    ({ v with finish := l.length + 1 } : RawVector α).Holds (l ++ [a]) := by
  obtain ⟨-, rest, hslots⟩ := h
  exact ⟨by rw [List.length_append, List.length_singleton], rest, hslots⟩

/-- The first access behind the load: the object is stored, or the vector is copied with it. -/
theorem Holds.push_loaded (h : v.Holds l) (spare : ℕ → ℕ) (a : α) :
    (∃ v', v.push spare (.loaded a l.length) = some (some (.constructed a l.length), v') ∧
      v'.Staged l a) ∨
    ∃ rest, v.push spare (.loaded a l.length) =
      some (some (.replaced a ((l ++ [a]).map some ++ rest) l.length), v) := by
  obtain ⟨hfinish, rest, hslots⟩ := h
  have hlen : l.length = (l.map some).length := (List.length_map some).symm
  by_cases hroom : l.length < v.slots.length
  · left
    refine ⟨_, if_pos hroom, hfinish, rest.tail, ?_⟩
    cases rest with
    | nil =>
      rw [hslots, List.append_nil, List.length_map] at hroom
      exact absurd hroom (lt_irrefl _)
    | cons x rest =>
      show v.slots.set l.length (some a) = _
      rw [hslots, hlen, List.set_append_right _ _ le_rfl, Nat.sub_self, List.set_cons_zero,
        List.map_append, List.append_assoc]
      rfl
  · right
    have htake : v.slots.take l.length = l.map some := by rw [hslots, hlen, List.take_left]
    refine ⟨List.replicate (spare l.length) none, ?_⟩
    rw [push, if_neg hroom, htake, if_pos, List.map_append, List.append_assoc]
    · rfl
    · rw [List.all_map, List.all_eq_true]
      exact fun _ _ => rfl

/-! ### `erase` -/

theorem Holds.gap {before behind : List α} (h : v.Holds (before ++ a :: behind)) :
    v.Gap before behind := by
  obtain ⟨hfinish, rest, hslots⟩ := h
  refine ⟨?_, some a, rest, ?_⟩
  · rw [hfinish, List.length_append, List.length_cons]
    omega
  · rw [hslots, List.map_append, List.append_assoc]
    rfl

/-- Moving one object moves the gap. -/
theorem Gap.moveDown {before behind : List α} (h : v.Gap before (a :: behind)) :
    ∃ v', v.moveDown v.generation before.length = some v' ∧ v'.generation = v.generation ∧
      v'.Gap (before ++ [a]) behind := by
  obtain ⟨hfinish, x, rest, hslots⟩ := h
  have hlen : before.length = (before.map some).length := (List.length_map some).symm
  have hload : v.load v.generation (before.length + 1) = some a := by
    rw [RawVector.load, if_pos rfl, hslots, hlen, List.getElem?_append_right (Nat.le_succ _),
      Nat.succ_sub le_rfl, Nat.sub_self]
    rfl
  refine ⟨{ v with slots := (v.slots.set before.length (some a)).set (before.length + 1) none },
    by rw [RawVector.moveDown, hload, Option.map_some], rfl, ?_, none, rest, ?_⟩
  · rw [hfinish, List.length_append, List.length_cons, List.length_singleton]
    omega
  · show (v.slots.set before.length (some a)).set (before.length + 1) none = _
    rw [hslots, hlen, List.set_append_right _ _ le_rfl, Nat.sub_self, List.set_cons_zero,
      List.set_append_right _ _ (Nat.le_succ _), Nat.succ_sub le_rfl, Nat.sub_self, List.map_append,
      List.append_assoc]
    rfl

theorem Gap.truncate (h : v.Gap l []) :
    ∃ v', v.truncate v.generation l.length = some v' ∧ v'.Holds l := by
  obtain ⟨-, x, rest, hslots⟩ := h
  have hlen : l.length = (l.map some).length := (List.length_map some).symm
  refine ⟨_, if_pos rfl, rfl, none :: rest, ?_⟩
  show v.slots.set l.length none = _
  rw [hslots, hlen, List.set_append_right _ _ le_rfl, Nat.sub_self, List.set_cons_zero]
  rfl

end RawVector
