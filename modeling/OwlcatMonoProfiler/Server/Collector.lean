import OwlcatMonoProfiler.Library.Worklist
import OwlcatMonoProfiler.Server.WorkerThread

/-!
# The pseudo garbage collection

`do_gc_internal` of `server/src/worker_thread.cpp`: clear all marks, push the roots, process the
stack, forget all unmarked objects.  The heap is a parameter of each collection.

* `Memory`: the bytes of the process, `none` where an access is a violation;
* `markRoot`, `scanWord`, `processStack`, `sweep`: the phases of the collection, each loop of the
  source a fold or (for the stack) a recursion on fuel;
* `doGcInternal`, `doGcSync`;
* `pointees` and `Live`: which tracked objects an object mentions, and which are reachable from the
  roots, said without marks and stacks;
* `processStack_spec`: the stack loop is the traversal `Worklist.loop` along `pointees`;
* `marks_mark`: what a collection leaves in each entry of the map.
-/

namespace Owlcat

open LittleEndian

/-- The memory of the process; a byte that cannot be read is `none`. -/
abbrev Memory := UInt64 → Option UInt8

/-- Read the `uintptr_t` at an address. -/
def Memory.load (mem : Memory) (p : UInt64) : Option UInt64 :=
  ((List.range 8).mapM fun i => mem (p + UInt64.ofNat i)).map fun b => UInt64.ofNat (ofBytes b)

/-- `get_ptr_safe`: an access violation reads as zero. -/
def Memory.getPtrSafe (mem : Memory) (p : UInt64) : UInt64 := (mem.load p).getD 0

/-- The words of a root area.  The areas are memory of the runtime that can be read. -/
def RootInfo.words (mem : Memory) (r : RootInfo) : List UInt64 :=
  (List.range (r.size.toNat / 8)).map fun i => mem.getPtrSafe (r.start + UInt64.ofNat (8 * i))

namespace WorkerThread

/-- The map of allocations and the stack of objects to process, its back at the head. -/
abbrev Marking := Dict UInt64 AllocInfo × List UInt64

/-- Clear all objects' marks. -/
def clearMarks (m : Dict UInt64 AllocInfo) : Dict UInt64 AllocInfo :=
  Dict.mapEntries (fun _ alloc => { alloc with
    tmpAllocated := false, isRoot := false, tmpVisited := false, parents := [] }) m

/-- Look at one word of a root area. -/
def markRoot (p : Marking) (ref : UInt64) : Marking :=
  if ref ≠ 0 then
    match p.1.lookup ref with
    | none => p
    | some alloc =>
      if alloc.tmpAllocated then p
      else (Dict.modify ref (fun a => { a with isRoot := true, tmpAllocated := true }) p.1,
        ref :: p.2)
  else p

/-- Look at one word of the object at `addr`. -/
def scanWord (addr : UInt64) (p : Marking) (candidate : UInt64) : Marking :=
  match p.1.lookup candidate with
  | none => p
  | some alloc =>
    let m := Dict.modify candidate (fun a => { a with parents := a.parents ++ [addr] }) p.1
    if alloc.tmpAllocated then (m, p.2)
    else (Dict.modify candidate (fun a => { a with isRoot := false, tmpAllocated := true }) m,
      candidate :: p.2)

/-- The words of an object: one at every byte that has seven more behind it. -/
def candidates (mem : Memory) (addr : UInt64) (size : UInt32) : List UInt64 :=
  (List.range (size.toNat - 7)).map fun o => mem.getPtrSafe (addr + UInt64.ofNat o)

/-- Process the stack, and count the iterations. -/
def processStack (mem : Memory) : ℕ → Marking → Marking × ℕ
  | 0, p => (p, 0)
  | _ + 1, (m, []) => ((m, []), 0)
  | n + 1, (m, addr :: stack) =>
    let words := match m.lookup addr with
      | none => []
      | some info => candidates mem addr info.size
    let r := processStack mem n (words.foldl (scanWord addr) (m, stack))
    (r.1, r.2 + 1)

/-- The marks of a collection and its number of iterations.  An object is pushed when it is marked,
so as many iterations as there are objects are enough. -/
def mark (mem : Memory) (roots : List RootInfo) (m : Dict UInt64 AllocInfo) : Marking × ℕ :=
  processStack mem m.keys.length
    ((roots.flatMap (RootInfo.words mem)).foldl markRoot (clearMarks m, []))

/-- Forget all unmarked objects and enqueue a free item for each. -/
def sweep (w : WorkerThread) (frame : UInt64) : WorkerThread :=
  { w with
    workItems := w.workItems.enqueueAll
      ((w.allocations.entries.filter fun e => !e.2.tmpAllocated).map fun e =>
        .free frame e.1 e.2.size)
    allocations := Dict.filterEntries (fun _ alloc => alloc.tmpAllocated) w.allocations }

/-- `do_gc_internal`: the number of iterations and the state afterwards. -/
def doGcInternal (w : WorkerThread) (frame : UInt64) (onlyUpdateParents : Bool) (mem : Memory) :
    ℕ × WorkerThread :=
  let r := mark mem w.roots w.allocations
  let w := { w with allocations := r.1.1 }
  (r.2, if onlyUpdateParents then w else w.sweep frame)

/-- `do_gc_sync`, after the wait for `m_work_items_empty`. -/
def doGcSync (w : WorkerThread) (frame : UInt64) (onlyUpdateParents : Bool) (mem : Memory) :
    WorkerThread :=
  { (w.doGcInternal frame onlyUpdateParents mem).2 with lastGcFrame := frame }

/-- A collection only adds to the queue. -/
theorem doGcSync_workItems (w : WorkerThread) (frame : UInt64) (onlyUpdateParents : Bool)
    (mem : Memory) :
    w.workItems.enqueued <+: (w.doGcSync frame onlyUpdateParents mem).workItems.enqueued ∧
      (w.doGcSync frame onlyUpdateParents mem).workItems.taken = w.workItems.taken := by
  cases onlyUpdateParents with
  | true => exact ⟨List.prefix_rfl, rfl⟩
  | false =>
    simp only [doGcSync, doGcInternal, sweep, Bool.false_eq_true, if_false,
      Fifo.enqueued_enqueueAll, Fifo.taken_enqueueAll]
    exact ⟨List.prefix_append _ _, trivial⟩

theorem doGcSync_workItemsEmpty (w : WorkerThread) (frame : UInt64) (onlyUpdateParents : Bool)
    (mem : Memory) :
    (w.doGcSync frame onlyUpdateParents mem).workItemsEmpty = w.workItemsEmpty := by
  cases onlyUpdateParents <;> rfl

theorem doGcSync_stop (w : WorkerThread) (frame : UInt64) (onlyUpdateParents : Bool)
    (mem : Memory) : (w.doGcSync frame onlyUpdateParents mem).stop = w.stop := by
  cases onlyUpdateParents <;> rfl

/-- `register_root` -/
def registerRoot (w : WorkerThread) (start size : UInt64) : WorkerThread :=
  { w with roots := w.roots ++ [⟨start, size⟩] }

/-- `unregister_root` -/
def unregisterRoot (w : WorkerThread) (start : UInt64) : WorkerThread :=
  { w with roots := w.roots.filter fun r => r.start != start }

/-! ### The heap as a graph -/

/-- The sizes of the tracked objects. -/
def sizes (m : Dict UInt64 AllocInfo) (a : UInt64) : Option UInt32 := (m.lookup a).map (·.size)

theorem mem_iff_sizes {m : Dict UInt64 AllocInfo} {a : UInt64} : a ∈ m ↔ (sizes m a).isSome := by
  rw [← AList.lookup_isSome, sizes, Option.isSome_map]

/-- The tracked objects an object mentions, once for each place where it does. -/
def pointees (mem : Memory) (sz : UInt64 → Option UInt32) (a : UInt64) : List UInt64 :=
  match sz a with
  | none => []
  | some size => (candidates mem a size).filter fun c => (sz c).isSome

/-- The tracked objects the root areas mention. -/
def rootRefs (mem : Memory) (roots : List RootInfo) (sz : UInt64 → Option UInt32) : List UInt64 :=
  (roots.flatMap (RootInfo.words mem)).filter fun r => r ≠ 0 ∧ (sz r).isSome

/-- A tracked object that is reachable from the roots. -/
def Live (mem : Memory) (roots : List RootInfo) (sz : UInt64 → Option UInt32) (a : UInt64) : Prop :=
  ∃ r ∈ rootRefs mem roots sz, Relation.ReflTransGen (fun x y => y ∈ pointees mem sz x) r a

/-- The objects marked so far. -/
def marked (m : Dict UInt64 AllocInfo) : Finset UInt64 :=
  (m.keys.filter fun k => (m.lookup k).any (·.tmpAllocated)).toFinset

theorem mem_marked {m : Dict UInt64 AllocInfo} {k : UInt64} :
    k ∈ marked m ↔ ∃ a, m.lookup k = some a ∧ a.tmpAllocated := by
  rw [marked, List.mem_toFinset, List.mem_filter, Option.any_eq_true]
  exact ⟨fun h => h.2, fun h => ⟨AList.mem_keys.1 (Dict.mem_iff_lookup.2 ⟨_, h.choose_spec.1⟩), h⟩⟩

/-- Marks change at one object only. -/
theorem marked_eq_insert {m m' : Dict UInt64 AllocInfo} {k : UInt64} (hk : (sizes m k).isSome)
    (h : ∀ y, (m'.lookup y).map (·.tmpAllocated) =
      (m.lookup y).map fun a => a.tmpAllocated || y == k) :
    marked m' = insert k (marked m) := by
  have hmem : ∀ (m : Dict UInt64 AllocInfo) y,
      y ∈ marked m ↔ (m.lookup y).map (·.tmpAllocated) = some true := by
    intro m y
    simp [mem_marked]
  ext y
  rw [Finset.mem_insert, hmem, h y, hmem]
  by_cases hy : y = k
  · subst hy
    obtain ⟨size, hsize⟩ := Option.isSome_iff_exists.1 hk
    obtain ⟨a, ha, -⟩ := Option.map_eq_some_iff.1 hsize
    simp [ha]
  · simp [hy]

/-! ### Marking the roots -/

theorem lookup_markRoot (p : Marking) (ref y : UInt64) :
    (markRoot p ref).1.lookup y = (p.1.lookup y).map fun a =>
      if y = ref ∧ ref ≠ 0 ∧ a.tmpAllocated = false then
        { a with isRoot := true, tmpAllocated := true } else a := by
  unfold markRoot
  split_ifs with h0
  · cases hl : p.1.lookup ref with
    | none =>
      by_cases hy : y = ref
      · subst hy
        simp [hl]
      · simp [hy]
    | some alloc =>
      by_cases hy : y = ref
      · subst hy
        cases ht : alloc.tmpAllocated <;> simp [hl, ht, h0, Dict.lookup_modify_self]
      · cases ht : alloc.tmpAllocated <;> simp [hy, ht, Dict.lookup_modify_ne hy]
  · simp [h0]

theorem sizes_markRoot (p : Marking) (ref : UInt64) : sizes (markRoot p ref).1 = sizes p.1 := by
  funext y
  rw [sizes, sizes, lookup_markRoot, Option.map_map]
  congr 1
  funext a
  simp only [Function.comp_apply]
  split_ifs <;> rfl

theorem markRoot_eq_self {p : Marking} {ref : UInt64}
    (h : ¬(ref ≠ 0 ∧ (sizes p.1 ref).isSome) ∨ ref ∈ marked p.1) : markRoot p ref = p := by
  unfold markRoot
  split_ifs with h0
  · cases hl : p.1.lookup ref with
    | none => rfl
    | some alloc =>
      rcases h with h | h
      · exact absurd ⟨h0, by simp [sizes, hl]⟩ h
      · obtain ⟨a, ha, hat⟩ := mem_marked.1 h
        rw [hl, Option.some.injEq] at ha
        simp [ha, hat]
  · rfl

theorem markRoot_push {p : Marking} {ref : UInt64} (h0 : ref ≠ 0) (hs : (sizes p.1 ref).isSome)
    (hm : ref ∉ marked p.1) :
    marked (markRoot p ref).1 = insert ref (marked p.1) ∧ (markRoot p ref).2 = ref :: p.2 := by
  constructor
  · refine marked_eq_insert hs fun y => ?_
    rw [lookup_markRoot, Option.map_map]
    congr 1
    funext a
    cases ht : a.tmpAllocated <;> by_cases hy : y = ref <;> simp [ht, hy, h0]
  · unfold markRoot
    rw [if_pos h0]
    cases hl : p.1.lookup ref with
    | none => simp [sizes, hl] at hs
    | some alloc =>
      have ht : alloc.tmpAllocated = false := by
        cases ht : alloc.tmpAllocated
        · rfl
        · exact absurd (mem_marked.2 ⟨alloc, hl, ht⟩) hm
      simp [ht]

/-- The roots are marked and pushed, each once. -/
theorem foldl_markRoot (l : List UInt64) (p : Marking) :
    marked (l.foldl markRoot p).1 = (Worklist.push (marked p.1) p.2
        (l.filter fun r => r ≠ 0 ∧ (sizes p.1 r).isSome)).1 ∧
      (l.foldl markRoot p).2 = (Worklist.push (marked p.1) p.2
        (l.filter fun r => r ≠ 0 ∧ (sizes p.1 r).isSome)).2 := by
  refine Worklist.foldl_eq_push (I := fun q => sizes q.1 = sizes p.1)
    (fun q : Marking => marked q.1) (fun q : Marking => q.2) ?_ ?_ ?_ rfl l
  · intro q y hq
    rw [sizes_markRoot, hq]
  · intro q y hq hy
    have h : markRoot q y = q := markRoot_eq_self (by simpa [hq] using hy)
    simp only [h, and_self]
  · intro q y hq hy hm
    rw [← hq] at hy
    have hy' := of_decide_eq_true hy
    exact markRoot_push hy'.1 hy'.2 hm

theorem lookup_foldl_markRoot (l : List UInt64) (p : Marking) (y : UInt64) :
    (l.foldl markRoot p).1.lookup y = (p.1.lookup y).map fun a =>
      if y ∈ l ∧ y ≠ 0 ∧ a.tmpAllocated = false then
        { a with isRoot := true, tmpAllocated := true } else a := by
  induction l generalizing p with
  | nil => simp
  | cons ref l ih =>
    rw [List.foldl_cons, ih, lookup_markRoot, Option.map_map]
    congr 1
    funext a
    by_cases hy : y = ref
    · by_cases h0 : ref = 0 <;> cases ht : a.tmpAllocated <;> simp [hy, h0, ht]
    · simp [hy]

/-! ### Scanning one object -/

theorem lookup_scanWord (addr : UInt64) (p : Marking) (candidate y : UInt64) :
    (scanWord addr p candidate).1.lookup y = (p.1.lookup y).map fun a =>
      if y = candidate then
        { a with
          parents := a.parents ++ [addr]
          isRoot := a.isRoot && a.tmpAllocated
          tmpAllocated := true } else a := by
  unfold scanWord
  cases hl : p.1.lookup candidate with
  | none =>
    by_cases hy : y = candidate
    · subst hy
      simp [hl]
    · simp [hy]
  | some alloc =>
    by_cases hy : y = candidate
    · subst hy
      cases ht : alloc.tmpAllocated <;> simp [hl, ht, Dict.lookup_modify_self]
    · cases ht : alloc.tmpAllocated <;> simp [hy, ht, Dict.lookup_modify_ne hy]

theorem sizes_scanWord (addr : UInt64) (p : Marking) (candidate : UInt64) :
    sizes (scanWord addr p candidate).1 = sizes p.1 := by
  funext y
  rw [sizes, sizes, lookup_scanWord, Option.map_map]
  congr 1
  funext a
  simp only [Function.comp_apply]
  split_ifs <;> rfl

theorem scanWord_of_untracked {addr : UInt64} {p : Marking} {candidate : UInt64}
    (h : (sizes p.1 candidate).isSome = false) : scanWord addr p candidate = p := by
  unfold scanWord
  cases hl : p.1.lookup candidate with
  | none => rfl
  | some alloc => simp [sizes, hl] at h

theorem scanWord_of_marked {addr : UInt64} {p : Marking} {candidate : UInt64}
    (h : candidate ∈ marked p.1) :
    marked (scanWord addr p candidate).1 = marked p.1 ∧ (scanWord addr p candidate).2 = p.2 := by
  obtain ⟨alloc, hl, ht⟩ := mem_marked.1 h
  constructor
  · ext y
    rw [mem_marked, mem_marked, lookup_scanWord]
    by_cases hy : y = candidate
    · subst hy
      simp [hl, ht]
    · simp [hy]
  · simp [scanWord, hl, ht]

theorem scanWord_push {addr : UInt64} {p : Marking} {candidate : UInt64}
    (hs : (sizes p.1 candidate).isSome) (hm : candidate ∉ marked p.1) :
    marked (scanWord addr p candidate).1 = insert candidate (marked p.1) ∧
      (scanWord addr p candidate).2 = candidate :: p.2 := by
  constructor
  · refine marked_eq_insert hs fun y => ?_
    rw [lookup_scanWord, Option.map_map]
    congr 1
    funext a
    by_cases hy : y = candidate <;> simp [hy]
  · unfold scanWord
    cases hl : p.1.lookup candidate with
    | none => simp [sizes, hl] at hs
    | some alloc =>
      have ht : alloc.tmpAllocated = false := by
        cases ht : alloc.tmpAllocated
        · rfl
        · exact absurd (mem_marked.2 ⟨alloc, hl, ht⟩) hm
      simp [ht]

/-- The objects mentioned are marked and pushed, each once. -/
theorem foldl_scanWord (addr : UInt64) (l : List UInt64) (p : Marking) :
    marked (l.foldl (scanWord addr) p).1 = (Worklist.push (marked p.1) p.2
        (l.filter fun c => (sizes p.1 c).isSome)).1 ∧
      (l.foldl (scanWord addr) p).2 = (Worklist.push (marked p.1) p.2
        (l.filter fun c => (sizes p.1 c).isSome)).2 := by
  refine Worklist.foldl_eq_push (I := fun q => sizes q.1 = sizes p.1)
    (fun q : Marking => marked q.1) (fun q : Marking => q.2) ?_ ?_ ?_ rfl l
  · intro q y hq
    rw [sizes_scanWord, hq]
  · rintro q y hq (hy | hy)
    · rw [scanWord_of_untracked (by rw [hq, hy])]
      exact ⟨rfl, rfl⟩
    · exact scanWord_of_marked hy
  · intro q y hq hy hm
    exact scanWord_push (by rw [hq, hy]) hm

theorem sizes_foldl_scanWord (addr : UInt64) (l : List UInt64) (p : Marking) :
    sizes (l.foldl (scanWord addr) p).1 = sizes p.1 := by
  induction l generalizing p with
  | nil => rfl
  | cons c l ih => rw [List.foldl_cons, ih, sizes_scanWord]

/-- Every mention of an object adds the scanned object to its parents. -/
theorem lookup_foldl_scanWord (addr : UInt64) (l : List UInt64) (p : Marking) (y : UInt64) :
    (l.foldl (scanWord addr) p).1.lookup y = (p.1.lookup y).map fun a =>
      { a with
        parents := a.parents ++ List.replicate (l.count y) addr
        isRoot := a.isRoot && (a.tmpAllocated || y ∉ l)
        tmpAllocated := a.tmpAllocated || y ∈ l } := by
  induction l generalizing p with
  | nil => cases hl : p.1.lookup y <;> simp [hl]
  | cons c l ih =>
    rw [List.foldl_cons, ih, lookup_scanWord, Option.map_map]
    congr 1
    funext a
    by_cases hy : y = c
    · subst hy
      simp [List.count_cons_self, List.replicate_succ]
    · simp [hy, List.count_cons_of_ne (Ne.symm hy)]

/-! ### The stack loop -/

/-- The parents a traversal finds for `y`: each object it pops, once for each mention of `y`. -/
def parentsFrom (succ : UInt64 → List UInt64) (popped : List UInt64) (y : UInt64) : List UInt64 :=
  popped.flatMap fun x => List.replicate ((succ x).count y) x

/-- **The stack loop is the traversal along the pointers.** -/
theorem processStack_spec (mem : Memory) (n : ℕ) (p : Marking) :
    let succ := pointees mem (sizes p.1)
    let r := Worklist.loop succ n (marked p.1) p.2
    (processStack mem n p).1.2 = r.stack ∧ (processStack mem n p).2 = r.popped.length ∧
      marked (processStack mem n p).1.1 = r.marked ∧
      ∀ y, (processStack mem n p).1.1.lookup y = (p.1.lookup y).map fun a =>
        { a with
          parents := a.parents ++ parentsFrom succ r.popped y
          isRoot := a.isRoot && (a.tmpAllocated || y ∉ r.popped.flatMap succ)
          tmpAllocated := a.tmpAllocated || y ∈ r.popped.flatMap succ } := by
  induction n generalizing p with
  | zero =>
    refine ⟨rfl, rfl, rfl, fun y => ?_⟩
    cases hl : p.1.lookup y <;> simp [processStack, Worklist.loop, parentsFrom, hl]
  | succ n ih =>
    obtain ⟨m, stack⟩ := p
    cases stack with
    | nil =>
      refine ⟨rfl, rfl, rfl, fun y => ?_⟩
      cases hl : m.lookup y <;> simp [processStack, Worklist.loop, parentsFrom, hl]
    | cons addr stack =>
      have hp : pointees mem (sizes m) addr = (match m.lookup addr with
          | none => []
          | some info => candidates mem addr info.size).filter fun c => (sizes m c).isSome := by
        unfold pointees
        cases hl : m.lookup addr <;> simp [sizes, hl]
      simp only [processStack, Worklist.loop]
      generalize (match m.lookup addr with
          | none => []
          | some info => candidates mem addr info.size) = words at hp
      have hsz := sizes_foldl_scanWord addr words (m, stack)
      obtain ⟨hmk, hst⟩ := foldl_scanWord addr words (m, stack)
      have hlk := lookup_foldl_scanWord addr words (m, stack)
      generalize words.foldl (scanWord addr) (m, stack) = q at hsz hmk hst hlk ⊢
      obtain ⟨ih1, ih2, ih3, ih4⟩ := ih q
      simp only at hsz hmk hst hlk
      rw [← hp] at hmk hst
      rw [hsz, hmk, hst] at ih1 ih2 ih3 ih4
      -- `y` gets its parents from the first pop and from the rest of the loop
      refine ⟨ih1, by rw [ih2]; rfl, ih3, fun y => ?_⟩
      rw [ih4, hlk, Option.map_map]
      cases hl : m.lookup y with
      | none => rfl
      | some a =>
        have hy : (sizes m y).isSome := by simp [sizes, hl]
        have hmem : y ∈ words ↔ y ∈ pointees mem (sizes m) addr := by simp [hp, hy]
        have hcount : words.count y = (pointees mem (sizes m) addr).count y := by
          rw [hp, List.count_filter (by simp [hy])]
        by_cases hm : y ∈ pointees mem (sizes m) addr <;>
          cases a.tmpAllocated <;> simp [hmem, hcount, hm, parentsFrom]

/-! ### A whole collection -/

section Mark

variable (mem : Memory) (roots : List RootInfo) (m : Dict UInt64 AllocInfo)

theorem lookup_clearMarks (y : UInt64) :
    (clearMarks m).lookup y = (m.lookup y).map fun a => { size := a.size } :=
  Dict.lookup_mapEntries ..

theorem sizes_clearMarks : sizes (clearMarks m) = sizes m := by
  funext y
  rw [sizes, lookup_clearMarks, Option.map_map]
  rfl

theorem marked_clearMarks : marked (clearMarks m) = ∅ := by
  ext y
  simp [mem_marked, lookup_clearMarks]

/-- The traversal a collection makes. -/
def traversal : Worklist.Result UInt64 :=
  let refs := rootRefs mem roots (sizes m)
  let p := Worklist.push ∅ [] refs
  Worklist.loop (pointees mem (sizes m)) m.keys.length p.1 p.2

theorem mark_spec :
    (mark mem roots m).1.2 = (traversal mem roots m).stack ∧
      (mark mem roots m).2 = (traversal mem roots m).popped.length ∧
      marked (mark mem roots m).1.1 = (traversal mem roots m).marked ∧
      ∀ y, (mark mem roots m).1.1.lookup y = (m.lookup y).map fun a =>
        { size := a.size
          parents := parentsFrom (pointees mem (sizes m)) (traversal mem roots m).popped y
          isRoot := y ∈ rootRefs mem roots (sizes m)
          tmpAllocated := y ∈ rootRefs mem roots (sizes m) ∨
            y ∈ (traversal mem roots m).popped.flatMap (pointees mem (sizes m)) } := by
  unfold mark
  have hsz : ∀ (l : List UInt64) (p : Marking), sizes (l.foldl markRoot p).1 = sizes p.1 := by
    intro l
    induction l with
    | nil => intro p; rfl
    | cons ref l ih => intro p; rw [List.foldl_cons, ih, sizes_markRoot]
  have hsz := hsz (roots.flatMap (RootInfo.words mem)) (clearMarks m, [])
  obtain ⟨hmk, hst⟩ := foldl_markRoot (roots.flatMap (RootInfo.words mem)) (clearMarks m, [])
  have hlk := lookup_foldl_markRoot (roots.flatMap (RootInfo.words mem)) (clearMarks m, [])
  generalize (roots.flatMap (RootInfo.words mem)).foldl markRoot (clearMarks m, []) = p
    at hsz hmk hst hlk ⊢
  simp only [sizes_clearMarks, marked_clearMarks] at hsz hmk hst hlk
  obtain ⟨h1, h2, h3, h4⟩ := processStack_spec mem m.keys.length p
  have htr : Worklist.loop (pointees mem (sizes p.1)) m.keys.length (marked p.1) p.2 =
      traversal mem roots m := by
    rw [hsz, hmk, hst]
    rfl
  rw [htr] at h1 h2 h3 h4
  refine ⟨h1, h2, h3, fun y => ?_⟩
  rw [h4, hlk, hsz, lookup_clearMarks, Option.map_map, Option.map_map]
  cases hl : m.lookup y with
  | none => rfl
  | some a =>
    have hy : (sizes m y).isSome := by simp [sizes, hl]
    have href : y ∈ rootRefs mem roots (sizes m) ↔
        y ∈ roots.flatMap (RootInfo.words mem) ∧ y ≠ 0 := by
      simp [rootRefs, hy]
    simp only [href, Option.map_some, Function.comp_apply, Option.some.injEq, and_true]
    generalize roots.flatMap (RootInfo.words mem) = words
    by_cases hw : y ∈ words <;> by_cases h0 : y = 0 <;> simp [hw, h0]

theorem sizes_of_pointees {mem : Memory} {sz : UInt64 → Option UInt32} {x y : UInt64}
    (h : y ∈ pointees mem sz x) : (sz y).isSome := by
  unfold pointees at h
  cases hs : sz x with
  | none => simp [hs] at h
  | some size =>
    rw [hs] at h
    exact (List.mem_filter.1 h).2

theorem sizes_of_rootRefs {mem : Memory} {roots : List RootInfo} {sz : UInt64 → Option UInt32}
    {y : UInt64} (h : y ∈ rootRefs mem roots sz) : (sz y).isSome :=
  (of_decide_eq_true (List.mem_filter.1 h).2).2

theorem mem_keys_toFinset {y : UInt64} : y ∈ m.keys.toFinset ↔ (sizes m y).isSome := by
  rw [List.mem_toFinset, ← AList.mem_keys, mem_iff_sizes]

/-- The stack loop has fuel enough. -/
theorem traversal_stack : (traversal mem roots m).stack = [] := by
  obtain ⟨new, h1, h2, h3⟩ := Worklist.push_stack ∅ [] (rootRefs mem roots (sizes m))
  refine Worklist.loop_stack_eq_nil (U := m.keys.toFinset)
    (fun x y hy => (mem_keys_toFinset m).2 (sizes_of_pointees hy)) ?_
  have hsub : new.toFinset ⊆ m.keys.toFinset := by
    intro y hy
    exact (mem_keys_toFinset m).2 (sizes_of_rootRefs ((h3 y).1 (List.mem_toFinset.1 hy)).1)
  have hroots : (rootRefs mem roots (sizes m)).toFinset = new.toFinset := by
    ext y
    simp [h3]
  rw [h1, List.append_nil, Worklist.push_marked, Finset.empty_union, hroots,
    Finset.card_sdiff_of_subset hsub, ← List.toFinset_card_of_nodup h2,
    ← List.toFinset_card_of_nodup m.keys_nodup]
  -- each tracked object is pushed at most once, and there are as many steps as objects
  have := Finset.card_le_card hsub
  omega

/-- **A collection marks the objects it processes, each once, and these are the live ones.** -/
theorem popped_traversal :
    (traversal mem roots m).popped.Nodup ∧
      (∀ y, y ∈ (traversal mem roots m).popped ↔ Live mem roots (sizes m) y) ∧
      ∀ y, y ∈ (traversal mem roots m).marked ↔ Live mem roots (sizes m) y := by
  obtain ⟨new, h1, h2, h3⟩ := Worklist.push_stack ∅ [] (rootRefs mem roots (sizes m))
  obtain ⟨new', h4, h5, h6⟩ := Worklist.popped_perm (traversal_stack mem roots m)
  have hsub := Worklist.marked_subset (pointees mem (sizes m)) m.keys.length
    (Worklist.push ∅ [] (rootRefs mem roots (sizes m))).1
    (Worklist.push ∅ [] (rootRefs mem roots (sizes m))).2
  have hsound := @Worklist.loop_sound _ _ (pointees mem (sizes m)) (Live mem roots (sizes m))
    (Live mem roots (sizes m)) (fun _ h => h) m.keys.length
    (Worklist.push ∅ [] (rootRefs mem roots (sizes m))).1
    (Worklist.push ∅ [] (rootRefs mem roots (sizes m))).2 ?_ ?_
  · change (traversal mem roots m).popped.Perm _ at h4
    change ∀ y, y ∈ new' ↔ y ∈ (traversal mem roots m).marked ∧ _ at h6
    change _ ⊆ (traversal mem roots m).marked at hsub
    replace hsound : ∀ y ∈ (traversal mem roots m).marked, _ := hsound.2
    rw [h1, List.append_nil] at h4
    simp only [Worklist.push_marked, Finset.empty_union, List.mem_toFinset] at h6 hsub hsound
    have hpop : ∀ y, y ∈ (traversal mem roots m).popped ↔ y ∈ (traversal mem roots m).marked := by
      intro y
      have hy : y ∈ rootRefs mem roots (sizes m) → y ∈ (traversal mem roots m).marked :=
        fun h => hsub (List.mem_toFinset.2 h)
      rw [h4.mem_iff, List.mem_append, h6, h3]
      simp only [Finset.notMem_empty, not_false_eq_true, and_true]
      tauto
    have hlive : ∀ y, y ∈ (traversal mem roots m).marked ↔ Live mem roots (sizes m) y := by
      intro y
      constructor
      · intro hy
        rcases hsound y hy with hy | hy
        · exact ⟨y, hy, .refl⟩
        · exact hy
      · rintro ⟨r, hr, hry⟩
        induction hry with
        | refl => exact hsub (List.mem_toFinset.2 hr)
        | tail _ hstep ih => exact Worklist.succ_of_popped ((hpop _).2 ih) _ hstep
    refine ⟨?_, fun y => (hpop y).trans (hlive y), hlive⟩
    rw [h4.nodup_iff]
    refine h2.append h5 fun y hy hy' => ((h6 y).1 hy').2 ((h3 y).1 hy).1
  · intro x hx
    rw [h1, List.append_nil, h3] at hx
    exact ⟨x, hx.1, .refl⟩
  · rintro x ⟨r, hr, hrx⟩ y hy -
    exact ⟨r, hr, hrx.tail hy⟩

theorem count_parentsFrom {succ : UInt64 → List UInt64} {popped : List UInt64} (h : popped.Nodup)
    (x y : UInt64) :
    (parentsFrom succ popped y).count x = if x ∈ popped then (succ x).count y else 0 := by
  induction popped with
  | nil => rfl
  | cons z popped ih =>
    obtain ⟨hz, hpopped⟩ := List.nodup_cons.1 h
    have ih := ih hpopped
    rw [parentsFrom] at ih ⊢
    rw [List.flatMap_cons, List.count_append, ih, List.count_replicate]
    by_cases hx : x = z
    · subst hx
      simp [hz]
    · simp [hx, Ne.symm hx]

theorem sizes_mark : sizes (mark mem roots m).1.1 = sizes m := by
  funext y
  rw [sizes, (mark_spec mem roots m).2.2.2, Option.map_map]
  rfl

/-- What a collection finds out about the object at `y`. -/
structure Marks (sz : UInt64 → Option UInt32) (y : UInt64) (alloc : AllocInfo) : Prop where
  tmpVisited : alloc.tmpVisited = false
  isRoot : alloc.isRoot ↔ y ∈ rootRefs mem roots sz
  tmpAllocated : alloc.tmpAllocated ↔ Live mem roots sz y
  parents_of_live : ∀ x, Live mem roots sz x → alloc.parents.count x = (pointees mem sz x).count y
  live_of_parents : ∀ x ∈ alloc.parents, Live mem roots sz x

/-- **What a collection leaves in the map**: the marks say what is live, and the parents of an
object are the live objects that mention it, once for each mention. -/
theorem marks_mark {y : UInt64} {alloc : AllocInfo}
    (h : (mark mem roots m).1.1.lookup y = some alloc) : Marks mem roots (sizes m) y alloc := by
  obtain ⟨-, -, hmarked, hlookup⟩ := mark_spec mem roots m
  obtain ⟨hnodup, hpopped, hlive⟩ := popped_traversal mem roots m
  have htmp : alloc.tmpAllocated ↔ Live mem roots (sizes m) y := by
    rw [← hlive, ← hmarked, mem_marked]
    simp [h]
  rw [hlookup] at h
  obtain ⟨a, ha, halloc⟩ := Option.map_eq_some_iff.1 h
  have hcount : ∀ x, alloc.parents.count x =
      if x ∈ (traversal mem roots m).popped then (pointees mem (sizes m) x).count y else 0 := by
    intro x
    rw [← halloc]
    exact count_parentsFrom hnodup x y
  refine ⟨?_, ?_, htmp, fun x hx => ?_, fun x hx => ?_⟩
  · rw [← halloc]
  · rw [← halloc]
    exact decide_eq_true_iff
  · rw [hcount, if_pos ((hpopped x).2 hx)]
  · by_contra hdead
    have := hcount x
    rw [if_neg fun hp => hdead ((hpopped x).1 hp)] at this
    exact List.count_eq_zero.1 this hx

/-- The parents of an object are the live objects that mention it. -/
theorem Marks.mem_parents {mem : Memory} {roots : List RootInfo} {sz : UInt64 → Option UInt32}
    {y : UInt64} {alloc : AllocInfo} (h : Marks mem roots sz y alloc) {x : UInt64} :
    x ∈ alloc.parents ↔ Live mem roots sz x ∧ y ∈ pointees mem sz x := by
  constructor
  · intro hx
    have hlive := h.live_of_parents x hx
    refine ⟨hlive, List.count_pos_iff.1 ?_⟩
    rw [← h.parents_of_live x hlive]
    exact List.count_pos_iff.2 hx
  · rintro ⟨hlive, hy⟩
    refine List.count_pos_iff.1 ?_
    rw [h.parents_of_live x hlive]
    exact List.count_pos_iff.2 hy

theorem sizes_of_live {y : UInt64} (h : Live mem roots (sizes m) y) : (sizes m y).isSome := by
  obtain ⟨r, hr, hry⟩ := h
  cases hry with
  | refl => exact sizes_of_rootRefs hr
  | tail _ hstep => exact sizes_of_pointees hstep

end Mark

end WorkerThread

end Owlcat
