import OwlcatMonoProfiler.Server.Collector

/-!
# What a collection finds

The results of `do_gc_internal` in the terms of the memory alone: no marks, no stack, no traversal.

* `RootWord`: an address is a word of a root area;
* `Stored`: the offsets at which an object stores an address;
* `Reachable`: the least set that contains the objects in the root areas and, with an object, the
  objects stored in it;
* `live_iff`: the objects the traversal meets are the reachable ones;
* `doGcInternal_exact`: marks, entries, free items and iterations of a collection;
* `parents_exact`: the lists of parents and the root flags.
-/

namespace Owlcat

namespace WorkerThread

/-- `a` is one of the words of a root area, which lie eight bytes apart. -/
def RootWord (mem : Memory) (roots : List RootInfo) (a : UInt64) : Prop :=
  ∃ r ∈ roots, ∃ i < r.size.toNat / 8, mem.getPtrSafe (r.start + UInt64.ofNat (8 * i)) = a

/-- The byte offsets at which the `size` bytes at `b` store the address `a`. -/
def Stored (mem : Memory) (b : UInt64) (size : UInt32) (a : UInt64) : Finset ℕ :=
  (Finset.range size.toNat).filter fun o =>
    o + 8 ≤ size.toNat ∧ mem.getPtrSafe (b + UInt64.ofNat o) = a

/-- The tracked objects that can be reached from the root areas. -/
inductive Reachable (mem : Memory) (roots : List RootInfo) (sz : UInt64 → Option UInt32) :
    UInt64 → Prop
  | root {a : UInt64} (h0 : a ≠ 0) (hword : RootWord mem roots a) (ha : (sz a).isSome) :
    Reachable mem roots sz a
  | stored {a b : UInt64} {size : UInt32} (hb : Reachable mem roots sz b) (hsize : sz b = some size)
    (hstored : (Stored mem b size a).Nonempty) (ha : (sz a).isSome) : Reachable mem roots sz a

/-! ### The traversal and the memory -/

section Traversal

variable {mem : Memory} {roots : List RootInfo} {sz : UInt64 → Option UInt32}

theorem mem_stored {b a : UInt64} {size : UInt32} {o : ℕ} :
    o ∈ Stored mem b size a ↔ o + 8 ≤ size.toNat ∧ mem.getPtrSafe (b + UInt64.ofNat o) = a := by
  rw [Stored, Finset.mem_filter, Finset.mem_range]
  constructor
  · rintro ⟨-, h⟩
    exact h
  · intro h
    exact ⟨by omega, h⟩

theorem mem_rootRefs {a : UInt64} :
    a ∈ rootRefs mem roots sz ↔ a ≠ 0 ∧ RootWord mem roots a ∧ (sz a).isSome := by
  have hwords : a ∈ roots.flatMap (RootInfo.words mem) ↔ RootWord mem roots a := by
    simp only [RootWord, RootInfo.words, List.mem_flatMap, List.mem_map, List.mem_range]
  rw [rootRefs, List.mem_filter, hwords, decide_eq_true_iff]
  tauto

/-- An object is scanned at every offset that has seven more bytes behind it. -/
theorem count_candidates (b : UInt64) (size : UInt32) (a : UInt64) :
    (candidates mem b size).count a = (Stored mem b size a).card := by
  have hstored : Stored mem b size a = ((List.range (size.toNat - 7)).filter fun o =>
      mem.getPtrSafe (b + UInt64.ofNat o) = a).toFinset := by
    ext o
    rw [mem_stored, List.mem_toFinset, List.mem_filter, List.mem_range, decide_eq_true_iff]
    constructor
    · rintro ⟨ho, ha⟩
      exact ⟨by omega, ha⟩
    · rintro ⟨ho, ha⟩
      exact ⟨by omega, ha⟩
  rw [hstored, List.toFinset_card_of_nodup (List.nodup_range.filter _), candidates,
    List.count_eq_countP, List.countP_map, List.countP_eq_length_filter]
  congr 1

theorem count_pointees {b : UInt64} {size : UInt32} (hsize : sz b = some size) {a : UInt64}
    (ha : (sz a).isSome) : (pointees mem sz b).count a = (Stored mem b size a).card := by
  rw [pointees, hsize, ← count_candidates]
  exact List.count_filter ha

theorem mem_pointees {b a : UInt64} : a ∈ pointees mem sz b ↔
    ∃ size, sz b = some size ∧ (Stored mem b size a).Nonempty ∧ (sz a).isSome := by
  constructor
  · intro h
    have ha := sizes_of_pointees h
    cases hsize : sz b with
    | none => simp [pointees, hsize] at h
    | some size =>
      refine ⟨size, rfl, Finset.card_pos.1 ?_, ha⟩
      rw [← count_pointees hsize ha]
      exact List.count_pos_iff.2 h
  · rintro ⟨size, hsize, hstored, ha⟩
    rw [← List.count_pos_iff, count_pointees hsize ha]
    exact Finset.card_pos.2 hstored

/-- **The objects a collection can come to are the reachable ones.** -/
theorem live_iff {a : UInt64} : Live mem roots sz a ↔ Reachable mem roots sz a := by
  constructor
  · rintro ⟨r, hr, hra⟩
    obtain ⟨h0, hword, hsz⟩ := mem_rootRefs.1 hr
    induction hra with
    | refl => exact .root h0 hword hsz
    | tail _ hstep ih =>
      obtain ⟨size, hsize, hstored, hsz'⟩ := mem_pointees.1 hstep
      exact .stored ih hsize hstored hsz'
  · intro h
    induction h with
    | root h0 hword ha => exact ⟨_, mem_rootRefs.2 ⟨h0, hword, ha⟩, .refl⟩
    | stored hb hsize hstored ha ih =>
      obtain ⟨r, hr, hrb⟩ := ih
      exact ⟨r, hr, hrb.tail (mem_pointees.2 ⟨_, hsize, hstored, ha⟩)⟩

end Traversal

/-! ### The stack loop ends -/

/-- More fuel than the stack loop needs makes no difference. -/
theorem processStack_of_finished (mem : Memory) {n k : ℕ} (hnk : n ≤ k) {p : Marking}
    (h : (processStack mem n p).1.2 = []) : processStack mem k p = processStack mem n p := by
  induction n generalizing k p with
  | zero =>
    obtain ⟨m, stack⟩ := p
    have hstack : stack = [] := h
    rw [hstack]
    cases k <;> rfl
  | succ n ih =>
    obtain ⟨k, rfl⟩ : ∃ k', k = k' + 1 := ⟨k - 1, by omega⟩
    obtain ⟨m, stack⟩ := p
    match stack with
    | [] => rfl
    | addr :: stack =>
      simp only [processStack] at h ⊢
      rw [ih (by omega) h]

/-- Marks and stack before the stack loop. -/
def rootMarking (mem : Memory) (roots : List RootInfo) (m : Dict UInt64 AllocInfo) : Marking :=
  (roots.flatMap (RootInfo.words mem)).foldl markRoot (clearMarks m, [])

/-! ### A whole collection -/

/-- What is left of the map after a collection comes from the marking. -/
theorem lookup_doGcInternal {w : WorkerThread} {frame : UInt64} {only : Bool} {mem : Memory}
    {a : UInt64} {alloc : AllocInfo} :
    (w.doGcInternal frame only mem).2.allocations.lookup a = some alloc ↔
      (mark mem w.roots w.allocations).1.1.lookup a = some alloc ∧
        (only = false → alloc.tmpAllocated) := by
  cases only with
  | true => simp [doGcInternal]
  | false =>
    simp only [doGcInternal, sweep, Bool.false_eq_true, if_false, Dict.lookup_filterEntries,
      Option.filter_eq_some_iff, true_implies]

/-- The free items of a sweep: one for each entry that is not marked. -/
theorem mem_freed {m : Dict UInt64 AllocInfo} {frame : UInt64} {item : WorkItem} :
    item ∈ ((m.entries.filter fun e => !e.2.tmpAllocated).map fun e =>
        WorkItem.free frame e.1 e.2.size) ↔
      ∃ a alloc, m.lookup a = some alloc ∧ alloc.tmpAllocated = false ∧
        item = .free frame a alloc.size := by
  rw [List.mem_map]
  constructor
  · rintro ⟨⟨a, alloc⟩, he, rfl⟩
    obtain ⟨hmem, hmark⟩ := List.mem_filter.1 he
    refine ⟨a, alloc, AList.mem_lookup_iff.2 hmem, ?_, rfl⟩
    simpa using hmark
  · rintro ⟨a, alloc, ha, hmark, rfl⟩
    refine ⟨⟨a, alloc⟩, List.mem_filter.2 ⟨AList.mem_lookup_iff.1 ha, ?_⟩, rfl⟩
    simpa using hmark

theorem nodup_freed (m : Dict UInt64 AllocInfo) (frame : UInt64) :
    ((m.entries.filter fun e => !e.2.tmpAllocated).map fun e =>
      WorkItem.free frame e.1 e.2.size).Nodup := by
  have hkeys : ((m.entries.filter fun e => !e.2.tmpAllocated).map Sigma.fst).Nodup :=
    m.keys_nodup.sublist (List.filter_sublist.map Sigma.fst)
  refine List.pairwise_map.2 ((List.pairwise_map.1 hkeys).imp fun hne heq => hne ?_)
  exact (WorkItem.free.inj heq).2.1

/-- What `do_gc_internal` does, compared with what can be reached. -/
structure CollectsExactly (w : WorkerThread) (frame : UInt64) (mem : Memory) : Prop where
  /-- The stack is empty after as many iterations as there are objects, or after any more. -/
  terminates : ∀ n ≥ w.allocations.keys.length,
    processStack mem n (rootMarking mem w.roots w.allocations) = mark mem w.roots w.allocations ∧
      (mark mem w.roots w.allocations).1.2 = []
  marks : ∀ only a alloc, (w.doGcInternal frame only mem).2.allocations.lookup a = some alloc →
    (alloc.tmpAllocated ↔ Reachable mem w.roots (sizes w.allocations) a)
  iterations : ∀ only, ∃ reached : Finset UInt64,
    (∀ a, a ∈ reached ↔ Reachable mem w.roots (sizes w.allocations) a) ∧
      (w.doGcInternal frame only mem).1 = reached.card
  keeps : ∀ a size, sizes (w.doGcInternal frame false mem).2.allocations a = some size ↔
    sizes w.allocations a = some size ∧ Reachable mem w.roots (sizes w.allocations) a
  frees : ∃ freed : List WorkItem,
    (w.doGcInternal frame false mem).2.workItems = w.workItems.enqueueAll freed ∧ freed.Nodup ∧
      ∀ item, item ∈ freed ↔ ∃ a size, item = .free frame a size ∧
        sizes w.allocations a = some size ∧ ¬Reachable mem w.roots (sizes w.allocations) a
  onlyParents : sizes (w.doGcInternal frame true mem).2.allocations = sizes w.allocations ∧
    (w.doGcInternal frame true mem).2.workItems = w.workItems

/-- **A collection marks, keeps and frees exactly what it should.** -/
theorem doGcInternal_exact (w : WorkerThread) (frame : UInt64) (mem : Memory) :
    w.CollectsExactly frame mem := by
  obtain ⟨hstack, hcount, hmarked, -⟩ := mark_spec mem w.roots w.allocations
  obtain ⟨hnodup, hpopped, hlive⟩ := popped_traversal mem w.roots w.allocations
  rw [traversal_stack] at hstack
  have hmark : ∀ a alloc, (mark mem w.roots w.allocations).1.1.lookup a = some alloc →
      (alloc.tmpAllocated ↔ Reachable mem w.roots (sizes w.allocations) a) := by
    intro a alloc ha
    rw [(marks_mark mem w.roots w.allocations ha).tmpAllocated, live_iff]
  have hsizes := sizes_mark mem w.roots w.allocations
  have hentry : ∀ a size, sizes w.allocations a = some size ↔ ∃ alloc,
      (mark mem w.roots w.allocations).1.1.lookup a = some alloc ∧ alloc.size = size := by
    intro a size
    rw [← hsizes, sizes, Option.map_eq_some_iff]
  refine ⟨fun n hn => ⟨processStack_of_finished mem hn hstack, hstack⟩, ?_, ?_, ?_, ?_, ?_⟩
  · intro only a alloc ha
    exact hmark a alloc (lookup_doGcInternal.1 ha).1
  · intro only
    refine ⟨(traversal mem w.roots w.allocations).popped.toFinset, fun a => ?_, ?_⟩
    · rw [List.mem_toFinset, hpopped, live_iff]
    · rw [List.toFinset_card_of_nodup hnodup]
      exact hcount
  · intro a size
    rw [hentry, sizes, Option.map_eq_some_iff]
    constructor
    · rintro ⟨alloc, ha, hsize⟩
      obtain ⟨ha, hkept⟩ := lookup_doGcInternal.1 ha
      exact ⟨⟨alloc, ha, hsize⟩, (hmark a alloc ha).1 (hkept rfl)⟩
    · rintro ⟨⟨alloc, ha, hsize⟩, hreach⟩
      exact ⟨alloc, lookup_doGcInternal.2 ⟨ha, fun _ => (hmark a alloc ha).2 hreach⟩, hsize⟩
  · refine ⟨_, rfl, nodup_freed (mark mem w.roots w.allocations).1.1 frame, fun item => ?_⟩
    rw [mem_freed]
    constructor
    · rintro ⟨a, alloc, ha, hmarkf, rfl⟩
      refine ⟨a, alloc.size, rfl, (hentry a alloc.size).2 ⟨alloc, ha, rfl⟩, fun hreach => ?_⟩
      rw [(hmark a alloc ha).2 hreach] at hmarkf
      cases hmarkf
    · rintro ⟨a, size, rfl, hsize, hreach⟩
      obtain ⟨alloc, ha, rfl⟩ := (hentry a size).1 hsize
      refine ⟨a, alloc, ha, ?_, rfl⟩
      rw [← Bool.not_eq_true]
      exact fun ht => hreach ((hmark a alloc ha).1 ht)
  · exact ⟨hsizes, rfl⟩

/-! ### Parents and root flags -/

/-- The lists of parents and the root flags `do_gc_internal` leaves, compared with the memory.  A
zero in a root area is not looked up. -/
structure DescribesExactly (w : WorkerThread) (frame : UInt64) (only : Bool) (mem : Memory) :
    Prop where
  isRoot : ∀ a alloc, (w.doGcInternal frame only mem).2.allocations.lookup a = some alloc →
    (alloc.isRoot ↔ a ≠ 0 ∧ RootWord mem w.roots a)
  parents_of_reachable : ∀ a alloc,
    (w.doGcInternal frame only mem).2.allocations.lookup a = some alloc →
      ∀ b size, sizes w.allocations b = some size →
        Reachable mem w.roots (sizes w.allocations) b →
          alloc.parents.count b = (Stored mem b size a).card
  parents_of_unreachable : ∀ a alloc,
    (w.doGcInternal frame only mem).2.allocations.lookup a = some alloc →
      ∀ b, ¬Reachable mem w.roots (sizes w.allocations) b → alloc.parents.count b = 0

/-- **Reference lists and root flags are exact.** -/
theorem parents_exact (w : WorkerThread) (frame : UInt64) (only : Bool) (mem : Memory) :
    w.DescribesExactly frame only mem := by
  have hentry : ∀ a alloc, (w.doGcInternal frame only mem).2.allocations.lookup a = some alloc →
      Marks mem w.roots (sizes w.allocations) a alloc ∧ (sizes w.allocations a).isSome := by
    intro a alloc ha
    obtain ⟨ha, -⟩ := lookup_doGcInternal.1 ha
    refine ⟨marks_mark mem w.roots w.allocations ha, ?_⟩
    rw [← sizes_mark mem w.roots w.allocations, sizes, ha]
    rfl
  refine ⟨fun a alloc ha => ?_, fun a alloc ha b size hsize hb => ?_, fun a alloc ha b hb => ?_⟩
  · obtain ⟨hmarks, hsz⟩ := hentry a alloc ha
    rw [hmarks.isRoot, mem_rootRefs]
    tauto
  · obtain ⟨hmarks, hsz⟩ := hentry a alloc ha
    rw [hmarks.parents_of_live b (live_iff.2 hb), count_pointees hsize hsz]
  · obtain ⟨hmarks, -⟩ := hentry a alloc ha
    refine List.count_eq_zero.2 fun hmem => hb (live_iff.1 ?_)
    exact hmarks.live_of_parents b hmem

/-- An object at address zero is not a root, although a root area may hold a zero. -/
theorem zero_word_sets_no_root :
    ¬ ∀ (w : WorkerThread) (frame : UInt64) (only : Bool) (mem : Memory) (a : UInt64),
      ∀ alloc, (w.doGcInternal frame only mem).2.allocations.lookup a = some alloc →
        (alloc.isRoot ↔ RootWord mem w.roots a) := by
  intro h
  have h' := h { allocations := (∅ : Dict UInt64 AllocInfo).insert 0 { size := 8 }
                 roots := [⟨100, 8⟩] } 1 true (fun _ => some 0) 0 { size := 8 } rfl
  have hword : RootWord (fun _ => some 0) [⟨100, 8⟩] 0 :=
    ⟨⟨100, 8⟩, List.mem_singleton_self _, 0, by decide, rfl⟩
  exact absurd (h'.2 hword) (by decide)

end WorkerThread

end Owlcat
