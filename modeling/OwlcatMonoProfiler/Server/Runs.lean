import OwlcatMonoProfiler.Library.Run
import OwlcatMonoProfiler.Server.References

/-!
# Runs of the worker thread

The worker thread together with everything the other threads ask of it, one action at a time: an
action holds `m_gc_mutex` (or touches only the queue), so no two of them overlap.

* `Action`, `step`: the actions and their effect; `step` is `none` for an action that is not
  possible;
* `rehash` lets the map change its iteration order, which the standard leaves open;
* `CollectsDrained`: a full collection starts only when no allocation is pending, the condition
  `do_gc_sync` waits for;
* `NoDangling.step`: in every reachable state all recorded parents are in the map.
-/

namespace Owlcat

namespace WorkerThread

/-- What can happen to a worker thread. -/
inductive Action
  | addAllocation (frame : UInt64) (klass : MonoClass) (obj : UInt64) (size : UInt32)
      (backtrace : List MonoMethod)
  | work
  | collect (frame : UInt64) (onlyUpdateParents : Bool) (mem : Memory)
  | registerRoot (start size : UInt64)
  | unregisterRoot (start : UInt64)
  | findReferences (requestId : UInt64) (addresses : List UInt64) (frame : UInt64) (mem : Memory)
      (classOf : ClassLookup)
  | pause (requestId : UInt64)
  | resume (requestId : UInt64)
  | stop
  | rehash (m : Dict UInt64 AllocInfo)

/-- The state after an action. -/
def step (w : WorkerThread) : Action → Option WorkerThread
  | .addAllocation frame klass obj size backtrace =>
    some (w.addAllocationAsync frame klass obj size backtrace)
  | .work => if w.exited then none else some w.doWork
  | .collect frame onlyUpdateParents mem => some (w.doGcSync frame onlyUpdateParents mem)
  | .registerRoot start size => some (w.registerRoot start size)
  | .unregisterRoot start => some (w.unregisterRoot start)
  | .findReferences requestId addresses frame mem classOf =>
    w.findReferences requestId addresses frame mem classOf
  | .pause requestId => some (w.pauseApp requestId)
  | .resume requestId => some (w.resumeApp requestId)
  | .stop => some w.requestStop
  | .rehash m =>
    if m.entries.Perm w.allocations.entries then some { w with allocations := m } else none

/-- No allocation waits in the queue. -/
def NoAllocPending (w : WorkerThread) : Prop := ∀ item ∈ w.workItems.pending, item.isAlloc = false

/-- The condition under which full collections start. -/
def CollectsDrained (w : WorkerThread) : Action → Prop
  | .collect _ false _ => w.NoAllocPending
  | _ => True

instance (w : WorkerThread) : Decidable w.NoAllocPending :=
  inferInstanceAs (Decidable (∀ item ∈ w.workItems.pending, item.isAlloc = false))

instance (w : WorkerThread) : ∀ a, Decidable (w.CollectsDrained a)
  | .collect _ false _ => inferInstanceAs (Decidable w.NoAllocPending)
  | .collect _ true _ | .addAllocation .. | .work | .registerRoot .. | .unregisterRoot _
  | .findReferences .. | .pause _ | .resume _ | .stop | .rehash _ => .isTrue trivial

/-- The worker thread before anything happens. -/
def initial : WorkerThread := {}

/-! ### Parents are tracked objects -/

theorem NoDangling.of_subset {m m' : Dict UInt64 AllocInfo} (h : NoDangling m)
    (hp : ∀ a, parentsOf m' a ⊆ parentsOf m a) (hm : ∀ a ∈ m, a ∈ m') : NoDangling m' :=
  fun a b hb => hm b (h a b (hp a hb))

theorem NoDangling.enterAllocation {w : WorkerThread} (h : NoDangling w.allocations)
    (frame addr : UInt64) (size : UInt32) :
    NoDangling (w.enterAllocation frame addr size).allocations := by
  unfold WorkerThread.enterAllocation
  cases ha : w.allocations.lookup addr with
  | none =>
    refine h.of_subset (fun a => ?_) fun a hm => AList.mem_insert _ |>.2 (Or.inr hm)
    simp only [parentsOf]
    by_cases hy : a = addr
    · subst hy
      simp
    · rw [AList.lookup_insert_ne hy]
      exact List.Subset.refl _
  | some alloc =>
    refine h.of_subset (fun a => ?_) fun a hm => (Dict.mem_modify _ _ _ _).2 hm
    simp only [parentsOf, Dict.modify, Dict.lookup_mapEntries]
    cases w.allocations.lookup a with
    | none => exact List.Subset.refl _
    | some alloc =>
      simp only [Option.map_some]
      split_ifs <;> exact List.Subset.refl _

theorem NoDangling.processItem {w : WorkerThread} (h : NoDangling w.allocations)
    (item : WorkItem) : NoDangling (w.processItem item).allocations := by
  cases item with
  | free frame obj size => exact h
  | alloc frame klass obj size backtrace =>
    simp only [WorkerThread.processItem]
    cases callstack backtrace with
    | none => exact h
    | some str => exact h.enterAllocation frame obj size

/-- After the marking, parents are marked themselves. -/
theorem marked_of_mem_parents (mem : Memory) (roots : List RootInfo) (m : Dict UInt64 AllocInfo)
    {a b : UInt64} (h : b ∈ parentsOf (mark mem roots m).1.1 a) :
    b ∈ marked (mark mem roots m).1.1 := by
  unfold parentsOf at h
  cases ha : (mark mem roots m).1.1.lookup a with
  | none => simp [ha] at h
  | some alloc =>
    rw [ha] at h
    have hlive := (marks_mark mem roots m ha).live_of_parents b h
    have hsz := sizes_of_live mem roots m hlive
    rw [← sizes_mark mem roots m] at hsz
    obtain ⟨size, hsize⟩ := Option.isSome_iff_exists.1 hsz
    obtain ⟨alloc', hb, -⟩ := Option.map_eq_some_iff.1 hsize
    exact mem_marked.2 ⟨alloc', hb, (marks_mark mem roots m hb).tmpAllocated.2 hlive⟩

theorem NoDangling.doGcInternal (w : WorkerThread) (frame : UInt64) (onlyUpdateParents : Bool)
    (mem : Memory) : NoDangling (w.doGcInternal frame onlyUpdateParents mem).2.allocations := by
  intro a b hb
  cases onlyUpdateParents with
  | true =>
    obtain ⟨alloc, ha, -⟩ := mem_marked.1 (marked_of_mem_parents mem w.roots w.allocations hb)
    exact Dict.mem_iff_lookup.2 ⟨alloc, ha⟩
  | false =>
    have hb' : b ∈ parentsOf (mark mem w.roots w.allocations).1.1 a := by
      simp only [WorkerThread.doGcInternal, sweep, parentsOf, Dict.lookup_filterEntries,
        Bool.false_eq_true, if_false] at hb
      unfold parentsOf
      cases ha : (mark mem w.roots w.allocations).1.1.lookup a with
      | none => simp [ha] at hb
      | some alloc =>
        rw [ha, Option.filter_some] at hb
        split_ifs at hb
        · exact hb
        · simp at hb
    exact (Dict.mem_filterEntries _ _ _).2
      (mem_marked.1 (marked_of_mem_parents mem w.roots w.allocations hb'))

theorem NoDangling.refreshParents {w : WorkerThread} (h : NoDangling w.allocations)
    (frame : UInt64) (mem : Memory) : NoDangling (w.refreshParents frame mem).allocations := by
  unfold WorkerThread.refreshParents
  split_ifs
  · exact NoDangling.doGcInternal w frame true mem
  · exact h

/-- **Recorded parents stay in the map.** -/
theorem NoDangling.step {w w' : WorkerThread} {a : Action} (h : NoDangling w.allocations)
    (hstep : w.step a = some w') : NoDangling w'.allocations := by
  cases a with
  | addAllocation => cases hstep; exact h
  | work =>
    simp only [WorkerThread.step] at hstep
    split_ifs at hstep
    cases hstep
    unfold doWork
    split_ifs
    · exact fun a b hb => by simp [cleanUp, parentsOf] at hb
    · cases w.workItems.tryDequeue with
      | none => exact h
      | some p =>
        exact
          NoDangling.processItem (w := { w with workItems := p.2, workItemsEmpty := false }) h p.1
  | collect frame only mem => cases hstep; exact NoDangling.doGcInternal w frame only mem
  | registerRoot => cases hstep; exact h
  | unregisterRoot => cases hstep; exact h
  | findReferences id addrs frame mem classOf =>
    have hrefresh := h.refreshParents frame mem
    obtain ⟨-, buffer, hfind⟩ := findReferencesInternal_spec hrefresh id addrs classOf
    rw [WorkerThread.step, WorkerThread.findReferences, hfind] at hstep
    cases hstep
    exact hrefresh.visitAll _
  | pause => cases hstep; exact h
  | resume => cases hstep; exact h
  | stop => cases hstep; exact h
  | rehash m =>
    simp only [WorkerThread.step] at hstep
    split_ifs at hstep with hperm
    cases hstep
    refine h.of_subset (fun a => ?_) fun a hm => (AList.mem_of_perm hperm).2 hm
    unfold parentsOf
    rw [AList.perm_lookup hperm]
    exact List.Subset.refl _

theorem noDangling_initial : NoDangling initial.allocations :=
  fun a b hb => by simp [parentsOf, initial] at hb

/-- **No run leaves a parent behind that is not in the map.** -/
theorem noDangling_of_run {l : List Action} {w : WorkerThread}
    (hrun : Run.run WorkerThread.step initial l = some w) : NoDangling w.allocations :=
  Run.reachable_invariant (I := fun w => NoDangling w.allocations)
    (fun _ _ _ h hstep => h.step hstep) noDangling_initial ⟨l, hrun⟩

/-- **Parents never dangle**: in every state of every run they are keys of the map, so a request
made in that state never dereferences the end iterator. -/
theorem parents_never_dangle {l : List Action} {w : WorkerThread}
    (hrun : Run.run WorkerThread.step initial l = some w) :
    (∀ a alloc, w.allocations.lookup a = some alloc → ∀ b ∈ alloc.parents, b ∈ w.allocations) ∧
      ∀ requestId addresses frame mem classOf,
        (w.findReferences requestId addresses frame mem classOf).isSome := by
  have h := noDangling_of_run hrun
  constructor
  · intro a alloc ha b hb
    refine h a b ?_
    rw [parentsOf, ha]
    exact hb
  · intro requestId addresses frame mem classOf
    obtain ⟨-, buffer, hfind⟩ :=
      findReferencesInternal_spec (h.refreshParents frame mem) requestId addresses classOf
    rw [WorkerThread.findReferences, hfind]
    rfl

/-- A collection links an object to itself before a request is made. -/
theorem parents_never_dangle_selfReference : ∃ w,
    Run.run WorkerThread.step initial
      [.addAllocation 1 ⟨none, .empty⟩ 16 8 [], .work, .registerRoot 100 8,
        .collect 1 false fun _ => some 16] = some w ∧
    (∀ a alloc, w.allocations.lookup a = some alloc → ∀ b ∈ alloc.parents, b ∈ w.allocations) ∧
      ∀ requestId addresses frame mem classOf,
        (w.findReferences requestId addresses frame mem classOf).isSome :=
  ⟨_, rfl, parents_never_dangle (l := [.addAllocation 1 ⟨none, .empty⟩ 16 8 [], .work,
    .registerRoot 100 8, .collect 1 false fun _ => some 16]) rfl⟩

end WorkerThread

end Owlcat
