import OwlcatMonoProfiler.Server.Runs

/-!
# Two reference requests, one after the other

What a request leaves behind for the next one in the same frame.  `find_references_internal` marks
the ancestors it has pushed with `TMP_VISITED` and nothing clears the marks until the next update of
the parents, so a second request does not report an ancestor that the first one has reported.

* `ParentEdge`, `Ancestor`: the graph a request walks through, said without marks and stacks;
* `popped_after_iff`: a request after another one is the traversal with the other's marks;
* `answer_after_iff`: when it reports what it would have reported alone.
-/

namespace Owlcat

namespace WorkerThread

/-- `b` is a parent of `a` in a request made in `frame`: an up-to-date one if the request updates
the parents, else a recorded one. -/
def ParentEdge (w : WorkerThread) (frame : UInt64) (mem : Memory) (a b : UInt64) : Prop :=
  if frame > w.lastGcFrame then
    Live mem w.roots (sizes w.allocations) b ∧ a ∈ pointees mem (sizes w.allocations) b
  else b ∈ parentsOf w.allocations a

/-- The visited marks a request made in `frame` starts with. -/
def visitedBefore (w : WorkerThread) (frame : UInt64) : Finset UInt64 :=
  if frame > w.lastGcFrame then ∅ else visited w.allocations

/-- `y` is an ancestor of one of the addresses, through objects that are not marked as visited. -/
def Ancestor (w : WorkerThread) (frame : UInt64) (mem : Memory) (addresses : List UInt64)
    (y : UInt64) : Prop :=
  ∃ x ∈ addresses,
    Relation.TransGen (fun a b => w.ParentEdge frame mem a b ∧ b ∉ w.visitedBefore frame) x y

/-- The first object a request reports has a class that can be read. -/
def FirstNameKnown (w : WorkerThread) (addresses : List UInt64) (classOf : ClassLookup) : Prop :=
  ∀ a ∈ addresses.reverse.find? (· ∈ w.allocations), (classOf a).isSome

/-- The last call of the events sink. -/
def lastReport (w : WorkerThread) : Option Report := w.eventsSink.getLast?

/-! ### The graph -/

theorem mem_parentsOf_refresh (w : WorkerThread) (frame : UInt64) (mem : Memory) (a b : UInt64) :
    b ∈ parentsOf (w.refreshParents frame mem).allocations a ↔ w.ParentEdge frame mem a b := by
  unfold ParentEdge refreshParents
  split_ifs
  · change b ∈ parentsOf (mark mem w.roots w.allocations).1.1 a ↔ _
    unfold parentsOf
    cases ha : (mark mem w.roots w.allocations).1.1.lookup a with
    | none =>
      have hsz : sizes w.allocations a = none := by
        rw [← sizes_mark mem w.roots w.allocations, sizes, ha]
        rfl
      simp only [List.not_mem_nil, false_iff, not_and]
      intro _ hb
      have := sizes_of_pointees hb
      rw [hsz] at this
      cases this
    | some alloc => exact (marks_mark mem w.roots w.allocations ha).mem_parents
  · exact Iff.rfl

theorem visited_refresh (w : WorkerThread) (frame : UInt64) (mem : Memory) :
    visited (w.refreshParents frame mem).allocations = w.visitedBefore frame := by
  unfold visitedBefore refreshParents
  split_ifs
  · apply visited_eq_empty
    intro a alloc halloc
    exact (marks_mark mem w.roots w.allocations halloc).tmpVisited
  · rfl

theorem reaches_refresh (w : WorkerThread) (frame : UInt64) (mem : Memory)
    (addresses : List UInt64) (y : UInt64) :
    Worklist.Reaches (parentsOf (w.refreshParents frame mem).allocations)
      (visited (w.refreshParents frame mem).allocations) addresses.reverse y ↔
      w.Ancestor frame mem addresses y := by
  unfold Worklist.Reaches Ancestor
  simp only [mem_parentsOf_refresh, visited_refresh, List.mem_reverse]

theorem mem_refresh (w : WorkerThread) (frame : UInt64) (mem : Memory) (a : UInt64) :
    a ∈ (w.refreshParents frame mem).allocations ↔ a ∈ w.allocations := by
  unfold refreshParents
  split_ifs
  · have hsz : sizes (w.doGcSync frame true mem).allocations = sizes w.allocations :=
      sizes_mark mem w.roots w.allocations
    rw [mem_iff_sizes, mem_iff_sizes, hsz]
  · rfl

/-! ### What is reported -/

section Describe

variable (m : Dict UInt64 AllocInfo) (classOf : ClassLookup)

theorem map_addr_describe (fullName : CString) (l : List UInt64) :
    (describe m classOf fullName l).map (·.addr) = l.filter (· ∈ m) := by
  induction l generalizing fullName with
  | nil => rfl
  | cons a l ih =>
    cases ha : m.lookup a with
    | none =>
      have hnot : a ∉ m := AList.lookup_eq_none.1 ha
      simp [describe, ha, hnot, ih]
    | some alloc =>
      have hmem : a ∈ m := Dict.mem_iff_lookup.2 ⟨alloc, ha⟩
      simp [describe, ha, hmem, ih]

theorem typeText_injective (alloc : AllocInfo) {s t : CString}
    (h : typeText s alloc = typeText t alloc) : s = t := by
  have hbytes := congrArg CString.bytes h
  simp only [typeText, CString.bytes_append, List.append_assoc] at hbytes
  exact CString.eq_of_bytes (List.append_cancel_right hbytes)

/-- The text left in the static buffer shows exactly when the first object has no readable class. -/
theorem describe_eq_iff (s t : CString) (l : List UInt64) :
    describe m classOf s l = describe m classOf t l ↔
      (∀ a ∈ l.find? (· ∈ m), (classOf a).isSome) ∨ s = t := by
  induction l with
  | nil => simp [describe]
  | cons a l ih =>
    cases ha : m.lookup a with
    | none =>
      have hnot : a ∉ m := AList.lookup_eq_none.1 ha
      simpa [describe, ha, hnot] using ih
    | some alloc =>
      have hmem : a ∈ m := Dict.mem_iff_lookup.2 ⟨alloc, ha⟩
      cases hc : classOf a with
      | some klass => simp [describe, ha, hmem, readFullName, hc]
      | none =>
        have hiff : (describe m classOf s (a :: l) = describe m classOf t (a :: l)) ↔ s = t := by
          constructor
          · intro h
            simp only [describe, ha, readFullName, hc, List.cons.injEq,
              ObjectReferences.mk.injEq] at h
            exact typeText_injective alloc h.1.2.1
          · rintro rfl
            rfl
        simp [hiff, hmem, hc]

end Describe

/-! ### A second request -/

/-- The traversal of a second request, with the marks the first one leaves. -/
theorem referenceTraversal_visitAll {m : Dict UInt64 AllocInfo} {l : List UInt64}
    (first second : List UInt64)
    (hvisited : visited (visitAll l m) = (referenceTraversal m first).marked) :
    referenceTraversal (visitAll l m) second =
      Worklist.loop (parentsOf m) (second.length + m.keys.length)
        (referenceTraversal m first).marked second.reverse := by
  rw [referenceTraversal, parentsOf_visitAll, hvisited, visitAll, Dict.keys_mapEntries]

/-- The second traversal is the same as without the first exactly when they reach nothing in
common. -/
theorem popped_after_iff {m : Dict UInt64 AllocInfo} (h : NoDangling m)
    (first second : List UInt64) :
    let common := fun y => Worklist.Reaches (parentsOf m) (visited m) first.reverse y ∧
      Worklist.Reaches (parentsOf m) (visited m) second.reverse y
    let after := (Worklist.loop (parentsOf m) (second.length + m.keys.length)
        (referenceTraversal m first).marked second.reverse).popped
    ((∀ y, ¬common y) → after = (referenceTraversal m second).popped) ∧
      (after.filter (· ∈ m) = (referenceTraversal m second).popped.filter (· ∈ m) →
        ∀ y, ¬common y) := by
  classical
  intro common after
  have hsub : visited m ⊆ (referenceTraversal m first).marked :=
    Worklist.marked_subset _ _ _ _
  have hextra : ∀ y, y ∈ (referenceTraversal m first).marked ↔
      y ∈ visited m ∨ Worklist.Reaches (parentsOf m) (visited m) first.reverse y := by
    intro y
    by_cases hy : y ∈ visited m
    · simp [hy, hsub hy]
    · rw [or_iff_right hy]
      exact Worklist.mem_marked_iff (referenceTraversal_stack h first) hy
  constructor
  · -- without a common ancestor, the first request leaves no mark the second one would meet
    intro hcommon
    have hunion : (referenceTraversal m first).marked =
        visited m ∪ (referenceTraversal m first).marked := (Finset.union_eq_right.2 hsub).symm
    change (Worklist.loop _ _ _ _).popped = (Worklist.loop _ _ _ _).popped
    rw [hunion]
    refine Worklist.loop_union (C := fun z => z ∈ second.reverse ∨
      Worklist.Reaches (parentsOf m) (visited m) second.reverse z) (fun x hx => Or.inl hx) ?_
    rintro x hx y hy hyv
    have hreach : Worklist.Reaches (parentsOf m) (visited m) second.reverse y := by
      rcases hx with hx | ⟨z, hz, hzx⟩
      · exact ⟨x, hx, .single ⟨hy, hyv⟩⟩
      · exact ⟨z, hz, hzx.tail ⟨hy, hyv⟩⟩
    refine ⟨Or.inr hreach, fun hmarked => ?_⟩
    exact hcommon y ⟨((hextra y).1 hmarked).resolve_left hyv, hreach⟩
  · rintro hpopped y ⟨hfirst, hsecond⟩
    -- `y` is marked by the first request, so the second one pops it once less
    have hmem : y ∈ m := by
      obtain ⟨x, -, hxy⟩ := hsecond
      cases hxy with
      | single hstep => exact h _ y hstep.1
      | tail _ hstep => exact h _ y hstep.1
    have hafter : after.count y = second.reverse.count y := by
      have hstack := loop_parentsOf_stack (referenceTraversal m first).marked second fun x _ => h x
      have hno : ¬Worklist.Reaches (parentsOf m) (referenceTraversal m first).marked
          second.reverse y := by
        rintro ⟨x, -, hxy⟩
        exact Worklist.notMem_of_transGen hxy ((hextra y).2 (Or.inr hfirst))
      simpa [hno] using Worklist.count_popped hstack y
    have halone := Worklist.count_popped (referenceTraversal_stack h second) y
    have hcount := congrArg (List.count y) hpopped
    rw [List.count_filter (by simpa using hmem), List.count_filter (by simpa using hmem),
      hafter] at hcount
    change _ = _ + if Worklist.Reaches (parentsOf m) (visited m) second.reverse y then 1 else 0
      at halone
    rw [if_pos hsecond] at halone
    change List.count y second.reverse = List.count y (Worklist.loop _ _ _ _).popped at hcount
    omega

theorem lastReport_report (w : WorkerThread) (r : Report) : (w.report r).lastReport = some r := by
  simp [lastReport, report]

/-- A request in the frame of the last update does not update the parents. -/
theorem refreshParents_eq_self {w : WorkerThread} {frame : UInt64} (h : frame ≤ w.lastGcFrame)
    (mem : Memory) : w.refreshParents frame mem = w :=
  if_neg (UInt64.not_lt.2 h)

theorem le_lastGcFrame_refresh (w : WorkerThread) (frame : UInt64) (mem : Memory) :
    frame ≤ (w.refreshParents frame mem).lastGcFrame := by
  unfold refreshParents
  split_ifs with h
  · exact UInt64.le_refl frame
  · exact UInt64.not_lt.1 h

/-- What a request reports. -/
theorem lastReport_findReferences {w : WorkerThread} (h : NoDangling w.allocations)
    (id : UInt64) (addrs : List UInt64) (frame : UInt64) (mem : Memory) (classOf : ClassLookup) :
    (w.findReferences id addrs frame mem classOf).map lastReport =
      some (some (.references id (describe (w.refreshParents frame mem).allocations classOf
        w.fullName
        (referenceTraversal (w.refreshParents frame mem).allocations addrs).popped))) := by
  have hname : (w.refreshParents frame mem).fullName = w.fullName := by
    unfold refreshParents
    split_ifs <;> rfl
  obtain ⟨-, buffer, hfind⟩ :=
    findReferencesInternal_spec (h.refreshParents frame mem) id addrs classOf
  rw [findReferences, hfind, Option.map_some, lastReport_report, hname]

/-- What a request leaves behind. -/
theorem findReferences_eq_some {w w' : WorkerThread} (h : NoDangling w.allocations)
    {id : UInt64} {addrs : List UInt64} {frame : UInt64} {mem : Memory} {classOf : ClassLookup}
    (hfind : w.findReferences id addrs frame mem classOf = some w') :
    frame ≤ w'.lastGcFrame ∧
      (∃ l, w'.allocations = visitAll l (w.refreshParents frame mem).allocations) ∧
      visited w'.allocations =
        (referenceTraversal (w.refreshParents frame mem).allocations addrs).marked := by
  obtain ⟨hvisited, buffer, hspec⟩ :=
    findReferencesInternal_spec (h.refreshParents frame mem) id addrs classOf
  rw [findReferences, hspec, Option.some.injEq] at hfind
  subst hfind
  exact ⟨le_lastGcFrame_refresh w frame mem, ⟨_, rfl⟩, hvisited⟩

/-- **A request after another one in the same frame reports what it would have reported alone
exactly when no object is an ancestor of addresses of both.**  The text in the static buffer must
also be the same, unless the first object reported has a class of its own to show. -/
theorem answer_after_iff {l : List Action} {w w' : WorkerThread} {idA idB frame : UInt64}
    {addrsA addrsB : List UInt64} {mem : Memory} {classOf : ClassLookup}
    (hrun : Run.run WorkerThread.step WorkerThread.initial l = some w)
    (hfirst : w.findReferences idA addrsA frame mem classOf = some w') :
    ((w'.findReferences idB addrsB frame mem classOf).map lastReport =
        (w.findReferences idB addrsB frame mem classOf).map lastReport) ↔
      (∀ y, ¬(w.Ancestor frame mem addrsA y ∧ w.Ancestor frame mem addrsB y)) ∧
        (w.FirstNameKnown addrsB classOf ∨ w'.fullName = w.fullName) := by
  have hw := noDangling_of_run hrun
  have hw' : NoDangling w'.allocations :=
    hw.step (a := .findReferences idA addrsA frame mem classOf) hfirst
  have hv := hw.refreshParents frame mem
  obtain ⟨hgc, ⟨marks, hmarks⟩, hvisited⟩ := findReferences_eq_some hw hfirst
  have hcommon : (∀ y, ¬(w.Ancestor frame mem addrsA y ∧ w.Ancestor frame mem addrsB y)) ↔ _ :=
    forall_congr' fun y => not_congr (and_congr (reaches_refresh w frame mem addrsA y)
      (reaches_refresh w frame mem addrsB y)).symm
  have hknown : w.FirstNameKnown addrsB classOf ↔ ∀ a ∈ (referenceTraversal
      (w.refreshParents frame mem).allocations addrsB).popped.find?
        (· ∈ (w.refreshParents frame mem).allocations), (classOf a).isSome := by
    rw [referenceTraversal, Worklist.find?_popped ?_ (referenceTraversal_stack hv addrsB)]
    · simp only [FirstNameKnown, mem_refresh]
    · intro x hx
      have hx' := AList.lookup_eq_none.2 (of_decide_eq_false hx)
      simp [parentsOf, hx']
  rw [lastReport_findReferences hw, lastReport_findReferences hw', refreshParents_eq_self hgc,
    hcommon, hknown]
  generalize (w.refreshParents frame mem).allocations = m at *
  obtain ⟨hsame, hdiffer⟩ := popped_after_iff hv addrsA addrsB
  rw [hmarks] at hvisited
  rw [hmarks, describe_visitAll, referenceTraversal_visitAll addrsA addrsB hvisited]
  simp only [Option.some.injEq, Report.references.injEq, true_and]
  constructor
  · intro h
    have haddrs := congrArg (List.map (·.addr)) h
    rw [map_addr_describe, map_addr_describe] at haddrs
    have hno := hdiffer haddrs
    rw [hsame hno, describe_eq_iff] at h
    exact ⟨hno, h⟩
  · rintro ⟨hno, h⟩
    rw [hsame hno, describe_eq_iff]
    exact h

/-- Two objects, and a root area at address 100. -/
def linkedRun : List Action :=
  [.addAllocation 1 ⟨none, .empty⟩ 16 8 [], .addAllocation 1 ⟨none, .empty⟩ 32 8 [], .work, .work,
    .registerRoot 100 8]

/-- The root area mentions the object at 16, which mentions the one at 32. -/
def linkedMemory : Memory := fun p => some (if p = 100 then 16 else if p = 16 then 32 else 0)

/-- A request for 16 does not disturb a request for 16. -/
theorem answer_after_iff_linkedRun : ∃ w w',
    Run.run WorkerThread.step WorkerThread.initial linkedRun = some w ∧
    w.findReferences 1 [16] 1 linkedMemory (fun _ => some ⟨none, .empty⟩) = some w' ∧
    (((w'.findReferences 2 [16] 1 linkedMemory fun _ => some ⟨none, .empty⟩).map lastReport =
        (w.findReferences 2 [16] 1 linkedMemory fun _ => some ⟨none, .empty⟩).map lastReport) ↔
      (∀ y, ¬(w.Ancestor 1 linkedMemory [16] y ∧ w.Ancestor 1 linkedMemory [16] y)) ∧
        (w.FirstNameKnown [16] (fun _ => some ⟨none, .empty⟩) ∨ w'.fullName = w.fullName)) :=
  ⟨_, _, rfl, rfl, answer_after_iff (l := linkedRun) rfl rfl⟩

/-- Asked twice for the object at 32, the second answer leaves its parent out. -/
theorem answer_depends_on_earlier_request :
    ¬ ∀ (l : List Action) (w w' : WorkerThread) (idA idB frame : UInt64)
      (addrsA addrsB : List UInt64) (mem : Memory) (classOf : ClassLookup),
      Run.run WorkerThread.step WorkerThread.initial l = some w →
      w.findReferences idA addrsA frame mem classOf = some w' →
      (w'.findReferences idB addrsB frame mem classOf).map lastReport =
        (w.findReferences idB addrsB frame mem classOf).map lastReport := by
  intro h
  have h' := h linkedRun _ _ 1 2 1 [32] [32] linkedMemory (fun _ => some ⟨none, .empty⟩) rfl rfl
  revert h'
  decide +kernel

end WorkerThread

end Owlcat
