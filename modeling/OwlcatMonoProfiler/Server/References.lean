import OwlcatMonoProfiler.Server.Collector

/-!
# Reference requests

`find_references_internal` and `find_references` of `server/src/worker_thread.cpp`: starting from
the requested addresses, walk the lists of parents and report every object met.

* `ClassLookup`: the outcome of `object_get_class` for each address, `none` for the access violation
  its guard catches;
* `visitParent`, `search`: the two loops; `none` is the dereference of the end iterator the source
  makes when a parent is not in the map;
* `findReferences`: a request, with the update of the parents it may start with;
* `NoDangling`: all parents are in the map;
* `search_eq`, `mem_of_search`: a search that meets no parent outside the map is the traversal
  `Worklist.loop` along `parentsOf`, and only such a search returns.
-/

namespace Owlcat

/-- The class found at an address; `none` if looking it up is an access violation. -/
abbrev ClassLookup := UInt64 → Option MonoClass

namespace WorkerThread

/-- The variables of `find_references_internal`; the back of the stack is its head. -/
structure Search where
  allocations : Dict UInt64 AllocInfo
  interestingAddresses : List UInt64
  filteredResults : List ObjectReferences
  fullName : CString

/-- Push one parent onto the stack, unless it is marked as visited. -/
def visitParent (p : Marking) (parent : UInt64) : Option Marking :=
  match p.1.lookup parent with
  | none => none
  | some alloc =>
    if alloc.tmpVisited then some p
    else some (Dict.modify parent (fun a => { a with tmpVisited := true }) p.1, parent :: p.2)

/-- The type text of an object: class name and two remarks. -/
def typeText (fullName : CString) (alloc : AllocInfo) : CString :=
  fullName ++ (if alloc.isRoot then .ofLit " (Root)" else .empty) ++
    (if alloc.tmpAllocated then .empty else .ofLit " (Deleted)")

/-- The static buffer after looking up a class: an access violation leaves it as it was. -/
def readFullName (classOf : ClassLookup) (addr : UInt64) (fullName : CString) : CString :=
  match classOf addr with
  | none => fullName
  | some klass => getFullClassName klass

/-- The loop over the stack. -/
def search (classOf : ClassLookup) : ℕ → Search → Option Search
  | 0, s => some s
  | n + 1, s =>
    match s.interestingAddresses with
    | [] => some s
    | addr :: stack =>
      match s.allocations.lookup addr with
      | none => search classOf n { s with interestingAddresses := stack }
      | some alloc =>
        let fullName := readFullName classOf addr s.fullName
        match alloc.parents.foldlM visitParent (s.allocations, stack) with
        | none => none
        | some (m, stack) =>
          search classOf n {
            allocations := m
            interestingAddresses := stack
            filteredResults :=
              s.filteredResults ++ [⟨addr, typeText fullName alloc, alloc.parents⟩]
            fullName := fullName }

/-- `find_references_internal`.  A parent is pushed when it is marked, so as many iterations as
there are addresses and objects are enough. -/
def findReferencesInternal (w : WorkerThread) (requestId : UInt64) (addresses : List UInt64)
    (classOf : ClassLookup) : Option WorkerThread :=
  (search classOf (addresses.length + w.allocations.keys.length)
    ⟨w.allocations, addresses.reverse, [], w.fullName⟩).map fun s =>
      { w with allocations := s.allocations, fullName := s.fullName }.report
        (.references requestId s.filteredResults)

/-- The update of the parents at the start of a request, if the last one was in an earlier frame. -/
def refreshParents (w : WorkerThread) (frame : UInt64) (mem : Memory) : WorkerThread :=
  if frame > w.lastGcFrame then w.doGcSync frame true mem else w

/-- `find_references`.  Whether the locks are taken or held already makes no difference to a request
that runs alone. -/
def findReferences (w : WorkerThread) (requestId : UInt64) (addresses : List UInt64)
    (frame : UInt64) (mem : Memory) (classOf : ClassLookup) : Option WorkerThread :=
  (w.refreshParents frame mem).findReferencesInternal requestId addresses classOf

/-! ### The graph of parents -/

/-- The parents recorded for an object. -/
def parentsOf (m : Dict UInt64 AllocInfo) (a : UInt64) : List UInt64 :=
  match m.lookup a with
  | none => []
  | some alloc => alloc.parents

/-- The objects marked as visited. -/
def visited (m : Dict UInt64 AllocInfo) : Finset UInt64 :=
  (m.keys.filter fun k => (m.lookup k).any (·.tmpVisited)).toFinset

/-- Every recorded parent is in the map. -/
def NoDangling (m : Dict UInt64 AllocInfo) : Prop := ∀ a, ∀ b ∈ parentsOf m a, b ∈ m

/-- The objects reported for a list of addresses, the static buffer holding `fullName` before. -/
def describe (m : Dict UInt64 AllocInfo) (classOf : ClassLookup) :
    CString → List UInt64 → List ObjectReferences
  | _, [] => []
  | fullName, addr :: l =>
    match m.lookup addr with
    | none => describe m classOf fullName l
    | some alloc =>
      let fullName := readFullName classOf addr fullName
      ⟨addr, typeText fullName alloc, alloc.parents⟩ :: describe m classOf fullName l

theorem mem_visited {m : Dict UInt64 AllocInfo} {k : UInt64} :
    k ∈ visited m ↔ ∃ a, m.lookup k = some a ∧ a.tmpVisited := by
  rw [visited, List.mem_toFinset, List.mem_filter, Option.any_eq_true]
  exact ⟨fun h => h.2, fun h => ⟨AList.mem_keys.1 (Dict.mem_iff_lookup.2 ⟨_, h.choose_spec.1⟩), h⟩⟩

theorem visited_eq_empty {m : Dict UInt64 AllocInfo}
    (h : ∀ a alloc, m.lookup a = some alloc → alloc.tmpVisited = false) : visited m = ∅ := by
  refine Finset.eq_empty_of_forall_notMem fun a ha => ?_
  obtain ⟨alloc, halloc, hv⟩ := mem_visited.1 ha
  rw [h a alloc halloc] at hv
  cases hv

/-- Mark the objects of a list as visited. -/
def visitAll (l : List UInt64) (m : Dict UInt64 AllocInfo) : Dict UInt64 AllocInfo :=
  Dict.mapEntries (fun k a => { a with tmpVisited := a.tmpVisited || k ∈ l }) m

theorem visitAll_nil (m : Dict UInt64 AllocInfo) : visitAll [] m = m := by
  simp [visitAll, Dict.mapEntries]

theorem visitAll_visitAll (l l' : List UInt64) (m : Dict UInt64 AllocInfo) :
    visitAll l' (visitAll l m) = visitAll (l ++ l') m := by
  simp [visitAll, Dict.mapEntries, Function.comp_def, Bool.or_assoc]

theorem lookup_visitAll (l : List UInt64) (m : Dict UInt64 AllocInfo) (y : UInt64) :
    (visitAll l m).lookup y =
      (m.lookup y).map fun a => { a with tmpVisited := a.tmpVisited || y ∈ l } :=
  Dict.lookup_mapEntries ..

@[simp] theorem parentsOf_visitAll (l : List UInt64) (m : Dict UInt64 AllocInfo) :
    parentsOf (visitAll l m) = parentsOf m := by
  funext y
  unfold parentsOf
  rw [lookup_visitAll]
  cases m.lookup y <;> rfl

theorem visited_visitAll {l : List UInt64} {m : Dict UInt64 AllocInfo} (hl : ∀ y ∈ l, y ∈ m) :
    visited (visitAll l m) = visited m ∪ l.toFinset := by
  ext y
  rw [Finset.mem_union, mem_visited, mem_visited, lookup_visitAll, List.mem_toFinset]
  cases hy : m.lookup y with
  | none =>
    have hnot : y ∉ l := fun h => AList.lookup_eq_none.1 hy (hl y h)
    simp [hnot]
  | some a => simp

/-- Visiting what is visited already changes nothing. -/
theorem visitAll_of_visited {l : List UInt64} {m : Dict UInt64 AllocInfo}
    (hl : ∀ y ∈ l, y ∈ visited m) : visitAll l m = m := by
  refine Eq.trans (Dict.mapEntries_congr fun k a ha => ?_) (Dict.mapEntries_id m)
  by_cases hk : k ∈ l
  · obtain ⟨a', ha', hv⟩ := mem_visited.1 (hl k hk)
    rw [ha, Option.some.injEq] at ha'
    rw [ha', hv, Bool.true_or, ← hv]
  · simp [hk]

/-- The parents of one object are visited and the new ones among them pushed. -/
theorem foldlM_visitParent {l : List UInt64} {p : Marking} (hl : ∀ y ∈ l, y ∈ p.1) :
    l.foldlM visitParent p =
      some (visitAll l p.1, (Worklist.push (visited p.1) p.2 l).2) := by
  induction l generalizing p with
  | nil => simp [visitAll_nil, Worklist.push]
  | cons parent l ih =>
    obtain ⟨alloc, ha⟩ := Dict.mem_iff_lookup.1 (hl parent List.mem_cons_self)
    have htail : ∀ y ∈ l, y ∈ p.1 := fun y hy => hl y (List.mem_cons_of_mem parent hy)
    rw [List.foldlM_cons, Worklist.push]
    cases hv : alloc.tmpVisited with
    | true =>
      have hvis : parent ∈ visited p.1 := mem_visited.2 ⟨alloc, ha, hv⟩
      have hsame : visitAll [parent] p.1 = p.1 := visitAll_of_visited (by simpa using hvis)
      have hstep : visitParent p parent = some p := by simp [visitParent, ha, hv]
      rw [if_pos hvis, hstep]
      change l.foldlM visitParent p = _
      rw [ih htail, show parent :: l = [parent] ++ l from rfl, ← visitAll_visitAll, hsame]
    | false =>
      have hvis : parent ∉ visited p.1 := by
        rw [mem_visited]
        rintro ⟨a, ha', hv'⟩
        rw [ha, Option.some.injEq] at ha'
        rw [← ha', hv] at hv'
        cases hv'
      have hmod : Dict.modify parent (fun a => { a with tmpVisited := true }) p.1 =
          visitAll [parent] p.1 := by
        refine Dict.mapEntries_congr fun k a _ => ?_
        by_cases hk : k = parent <;> simp [hk]
      have hstep : visitParent p parent = some (visitAll [parent] p.1, parent :: p.2) := by
        simp [visitParent, ha, hv, hmod]
      rw [if_neg hvis, hstep]
      change l.foldlM visitParent (visitAll [parent] p.1, parent :: p.2) = _
      rw [ih fun y hy => (Dict.mem_mapEntries _ _ _).2 (htail y hy), visitAll_visitAll,
        visited_visitAll (by simpa using hl parent List.mem_cons_self), List.singleton_append]
      congr 3
      rw [Finset.union_comm]
      rfl

/-- The flags that the search sets do not show in its results. -/
theorem describe_visitAll (l : List UInt64) (m : Dict UInt64 AllocInfo) (classOf : ClassLookup)
    (fullName : CString) (addrs : List UInt64) :
    describe (visitAll l m) classOf fullName addrs = describe m classOf fullName addrs := by
  induction addrs generalizing fullName with
  | nil => rfl
  | cons addr addrs ih =>
    simp only [describe, lookup_visitAll]
    cases m.lookup addr with
    | none => exact ih fullName
    | some a => simp only [Option.map_some, ih]; rfl

theorem NoDangling.visitAll {m : Dict UInt64 AllocInfo} (h : NoDangling m) (l : List UInt64) :
    NoDangling (visitAll l m) := by
  intro a b hb
  rw [parentsOf_visitAll] at hb
  exact (Dict.mem_mapEntries _ _ _).2 (h a b hb)

theorem search_untracked {m : Dict UInt64 AllocInfo} {addr : UInt64} (ha : m.lookup addr = none)
    (classOf : ClassLookup) (n : ℕ) (stack : List UInt64) (results : List ObjectReferences)
    (fullName : CString) :
    search classOf (n + 1) ⟨m, addr :: stack, results, fullName⟩ =
      search classOf n ⟨m, stack, results, fullName⟩ := by
  simp [search, ha]

theorem search_tracked {m : Dict UInt64 AllocInfo} {addr : UInt64} {alloc : AllocInfo}
    (h : ∀ b ∈ parentsOf m addr, b ∈ m) (ha : m.lookup addr = some alloc) (classOf : ClassLookup)
    (n : ℕ) (stack : List UInt64) (results : List ObjectReferences) (fullName : CString) :
    search classOf (n + 1) ⟨m, addr :: stack, results, fullName⟩ =
      search classOf n ⟨visitAll (parentsOf m addr) m,
        (Worklist.push (visited m) stack (parentsOf m addr)).2,
        results ++ [⟨addr, typeText (readFullName classOf addr fullName) alloc, alloc.parents⟩],
        readFullName classOf addr fullName⟩ := by
  have hp : parentsOf m addr = alloc.parents := by simp [parentsOf, ha]
  have hfold := foldlM_visitParent (p := (m, stack)) h
  rw [hp] at hfold
  simp [search, ha, hfold, hp]

/-- The parents of an object are in the map if pushing them never met the end iterator. -/
theorem mem_of_foldlM_visitParent {l : List UInt64} {p q : Marking}
    (h : l.foldlM visitParent p = some q) : ∀ y ∈ l, y ∈ p.1 := by
  induction l generalizing p with
  | nil => simp
  | cons parent l ih =>
    rw [List.foldlM_cons] at h
    obtain ⟨p', hp', h⟩ := Option.bind_eq_some_iff.1 h
    unfold visitParent at hp'
    cases ha : p.1.lookup parent with
    | none => simp [ha] at hp'
    | some alloc =>
      have hkeys : ∀ y, y ∈ p'.1 ↔ y ∈ p.1 := by
        intro y
        simp only [ha] at hp'
        split_ifs at hp' <;> cases hp'
        · rfl
        · exact Dict.mem_modify _ _ _ _
      intro y hy
      rcases List.mem_cons.1 hy with rfl | hy
      · exact Dict.mem_iff_lookup.2 ⟨alloc, ha⟩
      · exact (hkeys y).1 (ih h y hy)

/-- **The search is the traversal along the parents**, if these are in the map. -/
theorem search_eq (classOf : ClassLookup) (n : ℕ) {m : Dict UInt64 AllocInfo}
    (stack : List UInt64) (results : List ObjectReferences) (fullName : CString)
    (h : ∀ x ∈ (Worklist.loop (parentsOf m) n (visited m) stack).popped, ∀ y ∈ parentsOf m x,
      y ∈ m) :
    let r := Worklist.loop (parentsOf m) n (visited m) stack
    ∃ buffer, search classOf n ⟨m, stack, results, fullName⟩ = some
      { allocations := visitAll (r.popped.flatMap (parentsOf m)) m
        interestingAddresses := r.stack
        filteredResults := results ++ describe m classOf fullName r.popped
        fullName := buffer } ∧
      visited (visitAll (r.popped.flatMap (parentsOf m)) m) = r.marked := by
  induction n generalizing m stack results fullName with
  | zero => exact ⟨fullName, by simp [search, Worklist.loop, describe, visitAll_nil]⟩
  | succ n ih =>
    cases stack with
    | nil => exact ⟨fullName, by simp [search, Worklist.loop, describe, visitAll_nil]⟩
    | cons addr stack =>
      have haddr : ∀ b ∈ parentsOf m addr, b ∈ m := h addr List.mem_cons_self
      simp only [Worklist.loop, List.mem_cons, forall_eq_or_imp] at h
      simp only [Worklist.loop, List.flatMap_cons]
      cases ha : m.lookup addr with
      | none =>
        have hp : parentsOf m addr = [] := by simp [parentsOf, ha]
        rw [hp, Worklist.push] at h
        obtain ⟨buffer, ih1, ih2⟩ := ih stack results fullName h.2
        rw [search_untracked ha, ih1, hp]
        refine ⟨buffer, ?_, ih2⟩
        simp [Worklist.push, describe, ha]
      | some alloc =>
        have hvis := visited_visitAll haddr
        rw [← Worklist.push_marked (visited m) stack (parentsOf m addr)] at hvis
        obtain ⟨buffer, ih1, ih2⟩ := ih (m := visitAll (parentsOf m addr) m)
          (Worklist.push (visited m) stack (parentsOf m addr)).2
          (results ++ [⟨addr, typeText (readFullName classOf addr fullName) alloc, alloc.parents⟩])
          (readFullName classOf addr fullName)
          (by
            rw [hvis, parentsOf_visitAll]
            exact fun x hx y hy => (Dict.mem_mapEntries _ _ _).2 (h.2 x hx y hy))
        rw [hvis, parentsOf_visitAll, visitAll_visitAll] at ih1 ih2
        rw [search_tracked haddr ha, ih1]
        refine ⟨buffer, ?_, ih2⟩
        rw [describe_visitAll]
        simp [describe, ha]

/-- A search that returns has met no parent outside the map. -/
theorem mem_of_search (classOf : ClassLookup) (n : ℕ) {m : Dict UInt64 AllocInfo}
    {stack : List UInt64} {results : List ObjectReferences} {fullName : CString}
    (h : (search classOf n ⟨m, stack, results, fullName⟩).isSome) :
    ∀ x ∈ (Worklist.loop (parentsOf m) n (visited m) stack).popped, ∀ y ∈ parentsOf m x,
      y ∈ m := by
  induction n generalizing m stack results fullName with
  | zero => simp [Worklist.loop]
  | succ n ih =>
    cases stack with
    | nil => simp [Worklist.loop]
    | cons addr stack =>
      simp only [Worklist.loop, List.mem_cons, forall_eq_or_imp]
      cases ha : m.lookup addr with
      | none =>
        have hp : parentsOf m addr = [] := by simp [parentsOf, ha]
        rw [search_untracked ha] at h
        rw [hp, Worklist.push]
        exact ⟨by simp, ih h⟩
      | some alloc =>
        have haddr : ∀ b ∈ parentsOf m addr, b ∈ m := by
          rw [parentsOf, ha]
          cases hfold : alloc.parents.foldlM visitParent (m, stack) with
          | none => simp [search, ha, hfold] at h
          | some q => exact mem_of_foldlM_visitParent hfold
        rw [search_tracked haddr ha] at h
        have ih := ih h
        rw [visited_visitAll haddr, parentsOf_visitAll,
          ← Worklist.push_marked (visited m) stack (parentsOf m addr)] at ih
        exact ⟨haddr, fun x hx y hy => (Dict.mem_mapEntries _ _ _).1 (ih x hx y hy)⟩

/-- The traversal a reference request makes. -/
def referenceTraversal (m : Dict UInt64 AllocInfo) (addresses : List UInt64) :
    Worklist.Result UInt64 :=
  Worklist.loop (parentsOf m) (addresses.length + m.keys.length) (visited m) addresses.reverse

/-- A search that meets no parent outside the map has fuel enough, whatever is marked at its
start. -/
theorem loop_parentsOf_stack {m : Dict UInt64 AllocInfo} (marked : Finset UInt64)
    (addresses : List UInt64)
    (h : ∀ x ∈ (Worklist.loop (parentsOf m) (addresses.length + m.keys.length) marked
      addresses.reverse).popped, ∀ y ∈ parentsOf m x, y ∈ m) :
    (Worklist.loop (parentsOf m) (addresses.length + m.keys.length) marked
      addresses.reverse).stack = [] := by
  -- with the parents outside the map cut off, the traversal is the same
  have hsame : ∀ x ∈ (Worklist.loop (parentsOf m) (addresses.length + m.keys.length) marked
      addresses.reverse).popped, parentsOf m x = (parentsOf m x).filter (· ∈ m) := by
    intro x hx
    rw [List.filter_eq_self.2]
    intro y hy
    exact decide_eq_true (h x hx y hy)
  rw [Worklist.loop_congr hsame]
  refine Worklist.loop_stack_eq_nil (U := m.keys.toFinset) (fun x y hy => ?_) ?_
  · have hmem := of_decide_eq_true (List.mem_filter.1 hy).2
    exact List.mem_toFinset.2 (AList.mem_keys.1 hmem)
  · rw [List.length_reverse, ← List.toFinset_card_of_nodup m.keys_nodup]
    have := Finset.card_le_card (Finset.sdiff_subset (s := m.keys.toFinset) (t := marked))
    omega

theorem referenceTraversal_stack {m : Dict UInt64 AllocInfo} (h : NoDangling m)
    (addresses : List UInt64) : (referenceTraversal m addresses).stack = [] :=
  loop_parentsOf_stack (visited m) addresses fun x _ => h x

/-- **What a reference request reports and leaves behind.** -/
theorem findReferencesInternal_spec {w : WorkerThread} (h : NoDangling w.allocations)
    (requestId : UInt64) (addresses : List UInt64) (classOf : ClassLookup) :
    let r := referenceTraversal w.allocations addresses
    let m := visitAll (r.popped.flatMap (parentsOf w.allocations)) w.allocations
    visited m = r.marked ∧ ∃ buffer, w.findReferencesInternal requestId addresses classOf = some
      ({ w with allocations := m, fullName := buffer }.report (.references requestId
        (describe w.allocations classOf w.fullName r.popped))) := by
  obtain ⟨buffer, h1, h2⟩ := search_eq classOf (addresses.length + w.allocations.keys.length)
    addresses.reverse [] w.fullName fun x _ => h x
  refine ⟨h2, buffer, ?_⟩
  rw [findReferencesInternal, h1]
  rfl

end WorkerThread

end Owlcat
