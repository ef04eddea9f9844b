import OwlcatMonoProfiler.Server.Runs

/-!
# Collections and the stop-list

Allocations on the stop-list are not entered into the map, so a collection does not look into them.
An object that hangs on such an allocation only is forgotten though it is reachable.

* `newItems`: the frees a collection enqueues (`mem_newItems_iff`);
* `NoFalseFree`: no reachable object is among them, where the heap has all objects, skipped or not;
* `SkippedHarmless`: what the skipped objects mention is reachable without them;
* `noFalseFree_iff`: the first holds exactly in case of the second.
-/

namespace Owlcat

namespace WorkerThread

/-- The items a collection adds to the queue. -/
def newItems (w : WorkerThread) (frame : UInt64) (onlyUpdateParents : Bool) (mem : Memory) :
    List WorkItem :=
  (w.doGcInternal frame onlyUpdateParents mem).2.workItems.enqueued.drop w.workItems.enqueued.length

theorem newItems_true (w : WorkerThread) (frame : UInt64) (mem : Memory) :
    w.newItems frame true mem = [] :=
  List.drop_eq_nil_of_le le_rfl

/-- **A full collection frees what it cannot reach through tracked objects.** -/
theorem mem_newItems_iff {w : WorkerThread} {frame : UInt64} {mem : Memory} {a : UInt64} :
    (∃ size, WorkItem.free frame a size ∈ w.newItems frame false mem) ↔
      a ∈ w.allocations ∧ ¬ Live mem w.roots (sizes w.allocations) a := by
  have hitems : w.newItems frame false mem =
      ((mark mem w.roots w.allocations).1.1.entries.filter fun e => !e.2.tmpAllocated).map
        fun e => .free frame e.1 e.2.size := by
    simp only [newItems, doGcInternal, sweep, Bool.false_eq_true, if_false,
      Fifo.enqueued_enqueueAll, List.drop_left]
  have hmem : a ∈ w.allocations ↔
      ∃ alloc, (mark mem w.roots w.allocations).1.1.lookup a = some alloc := by
    rw [← Dict.mem_iff_lookup, mem_iff_sizes, mem_iff_sizes, sizes_mark]
  rw [hitems, hmem]
  constructor
  · rintro ⟨size, hsize⟩
    obtain ⟨e, he, heq⟩ := List.mem_map.1 hsize
    obtain ⟨hentry, hdead⟩ := List.mem_filter.1 he
    obtain ⟨-, rfl, -⟩ : frame = frame ∧ e.1 = a ∧ e.2.size = size := by simpa using heq
    have hlookup : (mark mem w.roots w.allocations).1.1.lookup e.1 = some e.2 :=
      AList.mem_lookup_iff.2 hentry
    refine ⟨⟨e.2, hlookup⟩, fun hlive => ?_⟩
    rw [(marks_mark mem w.roots w.allocations hlookup).tmpAllocated.2 hlive] at hdead
    cases hdead
  · rintro ⟨⟨alloc, halloc⟩, hdead⟩
    refine ⟨alloc.size, List.mem_map.2 ⟨⟨a, alloc⟩, List.mem_filter.2 ⟨?_, ?_⟩, rfl⟩⟩
    · exact AList.mem_lookup_iff.1 halloc
    · cases htmp : alloc.tmpAllocated with
      | false => rfl
      | true =>
        exact absurd ((marks_mark mem w.roots w.allocations halloc).tmpAllocated.1 htmp) hdead

/-- The objects of the heap, with their sizes, among them all tracked ones. -/
def HeapOf (w : WorkerThread) (heap : UInt64 → Option UInt32) : Prop :=
  ∀ a size, sizes w.allocations a = some size → heap a = some size

/-- No tracked object that is reachable through objects of the heap is freed. -/
def NoFalseFree (w : WorkerThread) (heap : UInt64 → Option UInt32) (frame : UInt64)
    (onlyUpdateParents : Bool) (mem : Memory) : Prop :=
  ∀ a size, WorkItem.free frame a size ∈ w.newItems frame onlyUpdateParents mem →
    ¬ Live mem w.roots heap a

/-- What a reachable object that is not tracked mentions is reachable through tracked objects. -/
def SkippedHarmless (w : WorkerThread) (heap : UInt64 → Option UInt32) (mem : Memory) : Prop :=
  ∀ x, Live mem w.roots heap x → x ∉ w.allocations →
    ∀ y ∈ pointees mem heap x, y ∈ w.allocations → Live mem w.roots (sizes w.allocations) y

/-! ### The heap and its tracked part -/

section Heap

variable {w : WorkerThread} {heap : UInt64 → Option UInt32} {mem : Memory}

theorem mem_rootRefs_iff {sz : UInt64 → Option UInt32} {roots : List RootInfo} {y : UInt64} :
    y ∈ rootRefs mem roots sz ↔
      y ∈ roots.flatMap (RootInfo.words mem) ∧ y ≠ 0 ∧ (sz y).isSome := by
  rw [rootRefs, List.mem_filter, decide_eq_true_iff]

/-- A tracked object mentioned by a tracked object. -/
theorem mem_pointees_tracked (hheap : w.HeapOf heap) {x y : UInt64} (hx : x ∈ w.allocations)
    (hy : y ∈ w.allocations) (h : y ∈ pointees mem heap x) :
    y ∈ pointees mem (sizes w.allocations) x := by
  obtain ⟨size, hsize⟩ := Option.isSome_iff_exists.1 (mem_iff_sizes.1 hx)
  unfold pointees at h ⊢
  rw [hheap x size hsize] at h
  rw [hsize]
  exact List.mem_filter.2 ⟨(List.mem_filter.1 h).1, mem_iff_sizes.1 hy⟩

/-- If skipped objects are harmless, the tracked objects that are reachable at all are reachable
through tracked objects. -/
theorem SkippedHarmless.live (h : w.SkippedHarmless heap mem) (hheap : w.HeapOf heap) {a : UInt64}
    (hlive : Live mem w.roots heap a) (ha : a ∈ w.allocations) :
    Live mem w.roots (sizes w.allocations) a := by
  obtain ⟨r, hr, hra⟩ := hlive
  induction hra with
  | refl =>
    obtain ⟨hword, hne, -⟩ := mem_rootRefs_iff.1 hr
    exact ⟨r, mem_rootRefs_iff.2 ⟨hword, hne, mem_iff_sizes.1 ha⟩, .refl⟩
  | @tail x y hrx hxy ih =>
    by_cases hx : x ∈ w.allocations
    · obtain ⟨s, hs, hsx⟩ := ih hx
      exact ⟨s, hs, hsx.tail (mem_pointees_tracked hheap hx ha hxy)⟩
    · exact h x ⟨r, hr, hrx⟩ hx y hxy ha

end Heap

/-- **No reachable object is freed** exactly when the skipped objects are harmless. -/
theorem noFalseFree_iff (w : WorkerThread) {heap : UInt64 → Option UInt32} (hheap : w.HeapOf heap)
    (frame : UInt64) (onlyUpdateParents : Bool) (mem : Memory) :
    w.NoFalseFree heap frame onlyUpdateParents mem ↔
      (onlyUpdateParents = false → w.SkippedHarmless heap mem) := by
  cases onlyUpdateParents with
  | true =>
    refine iff_of_true (fun a size ha => ?_) fun h => (by cases h)
    rw [newItems_true] at ha
    cases ha
  | false =>
    constructor
    · rintro h - x ⟨r, hr, hrx⟩ - y hxy hy
      by_contra hdead
      obtain ⟨size, hsize⟩ := mem_newItems_iff.2 ⟨hy, hdead⟩
      exact h y size hsize ⟨r, hr, hrx.tail hxy⟩
    · intro h a size hfree hlive
      obtain ⟨ha, hdead⟩ := mem_newItems_iff.1 ⟨size, hfree⟩
      exact hdead ((h rfl).live hheap hlive ha)

/-- An object that is allocated while the console draws, an ordinary one, and a root area. -/
def skippedRun : List Action :=
  [.addAllocation 1 ⟨none, .empty⟩ 16 8 [⟨⟨none, .ofLit "UberConsole"⟩, .ofLit "Draw"⟩],
    .addAllocation 1 ⟨none, .empty⟩ 32 8 [], .work, .work, .registerRoot 100 8]

/-- The root area mentions the object at 16, which mentions the one at 32. -/
def skippedMemory : Memory := fun p => some (if p = 100 then 16 else if p = 16 then 32 else 0)

/-- Both objects, whether they are tracked or not. -/
def skippedHeap (a : UInt64) : Option UInt32 := if a = 16 ∨ a = 32 then some 8 else none

theorem heapOf_skippedRun :
    ∃ w, Run.run WorkerThread.step WorkerThread.initial skippedRun = some w ∧
      w.HeapOf skippedHeap ∧ WorkItem.free 2 32 8 ∈ w.newItems 2 false skippedMemory ∧
      Live skippedMemory w.roots skippedHeap 32 := by
  refine ⟨_, rfl, fun a size h => ?_, by decide, 16, by decide, .single (by decide)⟩
  have ha : a ∈ [(32 : UInt64)] := AList.mem_keys.1 (mem_iff_sizes.2 (by rw [h]; rfl))
  rw [List.mem_singleton.1 ha] at h ⊢
  exact h

/-- The skipped object is not harmless. -/
theorem noFalseFree_iff_skippedRun :
    ∃ w, Run.run WorkerThread.step WorkerThread.initial skippedRun = some w ∧
      (w.NoFalseFree skippedHeap 2 false skippedMemory ↔
        w.SkippedHarmless skippedHeap skippedMemory) := by
  obtain ⟨w, hw, hheap, -⟩ := heapOf_skippedRun
  exact ⟨w, hw, (noFalseFree_iff w hheap 2 false skippedMemory).trans (by simp)⟩

/-- The object at 32 is freed, though the one at 16 mentions it. -/
theorem reachable_object_freed :
    ¬ ∀ (l : List Action) (w : WorkerThread) (heap : UInt64 → Option UInt32) (frame : UInt64)
      (onlyUpdateParents : Bool) (mem : Memory),
      Run.run WorkerThread.step WorkerThread.initial l = some w → w.HeapOf heap →
      w.NoFalseFree heap frame onlyUpdateParents mem := by
  intro h
  obtain ⟨w, hw, hheap, hfree, hlive⟩ := heapOf_skippedRun
  exact h skippedRun w skippedHeap 2 false skippedMemory hw hheap 32 8 hfree hlive

end WorkerThread

end Owlcat
