import OwlcatMonoProfiler.Network.RoundTrip
import OwlcatMonoProfiler.Server.Answers
import OwlcatMonoProfiler.Ui.LatestReferences
import OwlcatMonoProfiler.Ui.TreeIndex

/-!
# From the worker thread to the tree of references

A request reports an object only once between two updates of the parents, so an answer may mention
parents that an earlier answer described.  The tree keeps the entries of all answers, and finds them
there.

* `answers`, `reported`: the answers given so far, and the objects in them;
* `marked_of_request`: what a request marks as visited is in its answer, or was marked before;
* `AnswersClosed`: the parents in the answers are reported in the same or an earlier one;
* `referrers_of_run`: no parent is missing from the tree, whenever nodes are opened.
-/

namespace Owlcat

namespace WorkerThread

/-- The objects in a call of the events sink, if it is an answer. -/
def answerOf : Report → Option (List ObjectReferences)
  | .references _ references => some references
  | _ => none

/-- The answers given so far. -/
def answers (w : WorkerThread) : List (List ObjectReferences) := w.eventsSink.filterMap answerOf

/-- The addresses of the objects in a list of answers. -/
def reported (answers : List (List ObjectReferences)) : List UInt64 :=
  answers.flatten.map (·.addr)

/-- A list of answers that mention no object without describing it. -/
def Closed (answers : List (List ObjectReferences)) : Prop :=
  ∀ r ∈ answers.flatten, ∀ b ∈ r.parents, b ∈ reported answers

/-- The parents in the answers are reported in the same or an earlier answer, and what is marked as
visited was reported. -/
structure AnswersClosed (w : WorkerThread) : Prop where
  noDangling : NoDangling w.allocations
  visited_reported : ∀ a ∈ visited w.allocations, a ∈ reported w.answers
  closed : ∀ l, l <+: w.answers → Closed l

theorem answers_report (w : WorkerThread) (r : Report) :
    (w.report r).answers = w.answers ++ (answerOf r).toList := by
  rw [answers, report, List.filterMap_append]
  cases r <;> rfl

theorem reported_append (l l' : List (List ObjectReferences)) :
    reported (l ++ l') = reported l ++ reported l' := by
  rw [reported, List.flatten_append, List.map_append]
  rfl

/-! ### Actions that answer nothing -/

theorem visited_subset {m m' : Dict UInt64 AllocInfo}
    (h : ∀ a alloc', m'.lookup a = some alloc' → alloc'.tmpVisited →
      ∃ alloc, m.lookup a = some alloc ∧ alloc.tmpVisited) : visited m' ⊆ visited m := by
  intro a ha
  obtain ⟨alloc', hlookup, hvisited⟩ := mem_visited.1 ha
  exact mem_visited.2 (h a alloc' hlookup hvisited)

theorem visited_enterAllocation (w : WorkerThread) (frame addr : UInt64) (size : UInt32) :
    visited (w.enterAllocation frame addr size).allocations ⊆ visited w.allocations := by
  refine visited_subset fun a alloc' ha hv => ?_
  unfold enterAllocation at ha
  cases hl : w.allocations.lookup addr with
  | none =>
    simp only [hl] at ha
    by_cases haddr : a = addr
    · subst haddr
      rw [AList.lookup_insert, Option.some.injEq] at ha
      subst ha
      cases hv
    · rw [AList.lookup_insert_ne haddr] at ha
      exact ⟨alloc', ha, hv⟩
  | some alloc =>
    simp only [hl, Dict.modify, Dict.lookup_mapEntries] at ha
    obtain ⟨old, hold, rfl⟩ := Option.map_eq_some_iff.1 ha
    refine ⟨old, hold, ?_⟩
    split_ifs at hv
    · exact hv
    · exact hv

/-- Processing an item answers nothing and visits nothing. -/
theorem processItem_answers (w : WorkerThread) (item : WorkItem) :
    (w.processItem item).answers = w.answers ∧
      visited (w.processItem item).allocations ⊆ visited w.allocations := by
  cases item with
  | free frame obj size =>
    refine ⟨?_, Finset.Subset.refl _⟩
    exact (answers_report w (.free frame obj size)).trans (List.append_nil _)
  | alloc frame klass obj size backtrace =>
    simp only [processItem]
    cases callstack backtrace with
    | none => exact ⟨rfl, Finset.Subset.refl _⟩
    | some str =>
      have henter : (w.enterAllocation frame obj size).answers = w.answers := by
        unfold enterAllocation
        cases w.allocations.lookup obj with
        | none => rfl
        | some alloc =>
          exact (answers_report w (.free frame obj alloc.size)).trans (List.append_nil _)
      refine ⟨?_, visited_enterAllocation w frame obj size⟩
      rw [← henter]
      exact (answers_report (w.enterAllocation frame obj size)
        (.alloc frame obj size (getFullClassName klass) str)).trans (List.append_nil _)

/-- A collection forgets what was visited. -/
theorem visited_doGcSync (w : WorkerThread) (frame : UInt64) (only : Bool) (mem : Memory) :
    visited (w.doGcSync frame only mem).allocations = ∅ := by
  refine visited_eq_empty fun a alloc ha => ?_
  cases only with
  | true => exact (marks_mark mem w.roots w.allocations ha).tmpVisited
  | false =>
    have ha' : (Dict.filterEntries (fun _ alloc => alloc.tmpAllocated)
        (mark mem w.roots w.allocations).1.1).lookup a = some alloc := ha
    rw [Dict.lookup_filterEntries, Option.filter_eq_some_iff] at ha'
    exact (marks_mark mem w.roots w.allocations ha'.1).tmpVisited

/-- Whether an action is a request for references. -/
def Action.isRequest : Action → Bool
  | .findReferences .. => true
  | _ => false

theorem step_answers {w w' : WorkerThread} {a : Action} (ha : a.isRequest = false)
    (hstep : w.step a = some w') :
    w'.answers = w.answers ∧ visited w'.allocations ⊆ visited w.allocations := by
  cases a with
  | work =>
    simp only [WorkerThread.step] at hstep
    split_ifs at hstep
    cases hstep
    unfold doWork
    split_ifs
    · exact ⟨rfl, Finset.empty_subset _⟩
    · cases w.workItems.tryDequeue with
      | none => exact ⟨rfl, Finset.Subset.refl _⟩
      | some p =>
        exact processItem_answers { w with workItems := p.2, workItemsEmpty := false } p.1
  | collect frame only mem =>
    cases hstep
    refine ⟨by cases only <;> rfl, ?_⟩
    rw [visited_doGcSync]
    exact Finset.empty_subset _
  | rehash m =>
    simp only [WorkerThread.step] at hstep
    split_ifs at hstep with hperm
    cases hstep
    refine ⟨rfl, visited_subset fun a alloc' ha hv => ⟨alloc', ?_, hv⟩⟩
    rwa [← AList.perm_lookup hperm]
  | pause id =>
    cases hstep
    exact ⟨(answers_report _ (.paused id true)).trans (List.append_nil _), Finset.Subset.refl _⟩
  | resume id =>
    cases hstep
    exact ⟨(answers_report _ (.resumed id true)).trans (List.append_nil _), Finset.Subset.refl _⟩
  | addAllocation | registerRoot | unregisterRoot | stop =>
    cases hstep
    exact ⟨rfl, Finset.Subset.refl _⟩
  | findReferences => cases ha

/-! ### Requests -/

theorem parents_of_mem_describe {m : Dict UInt64 AllocInfo} {classOf : ClassLookup}
    {fullName : CString} {l : List UInt64} {r : ObjectReferences}
    (hr : r ∈ describe m classOf fullName l) : r.addr ∈ l ∧ r.parents = parentsOf m r.addr := by
  induction l generalizing fullName with
  | nil => cases hr
  | cons addr l ih =>
    cases ha : m.lookup addr with
    | none =>
      rw [describe, ha] at hr
      obtain ⟨hmem, hparents⟩ := ih hr
      exact ⟨List.mem_cons_of_mem _ hmem, hparents⟩
    | some alloc =>
      simp only [describe, ha] at hr
      rcases List.mem_cons.1 hr with rfl | hr
      · refine ⟨List.mem_cons_self, ?_⟩
        rw [parentsOf, ha]
      · obtain ⟨hmem, hparents⟩ := ih hr
        exact ⟨List.mem_cons_of_mem _ hmem, hparents⟩

/-- What a request marks as visited is in its answer, or was marked before. -/
theorem marked_of_request {m : Dict UInt64 AllocInfo} (h : NoDangling m) (addresses : List UInt64)
    (classOf : ClassLookup) (fullName : CString) {a : UInt64}
    (ha : a ∈ (referenceTraversal m addresses).marked) :
    a ∈ visited m ∨
      a ∈ (describe m classOf fullName (referenceTraversal m addresses).popped).map (·.addr) := by
  by_cases hold : a ∈ visited m
  · exact Or.inl hold
  · have hreaches := (Worklist.mem_marked_iff (referenceTraversal_stack h addresses) hold).1 ha
    refine Or.inr ?_
    rw [map_addr_describe, List.mem_filter, decide_eq_true_iff]
    refine ⟨(Worklist.mem_popped (referenceTraversal_stack h addresses)).2 (Or.inr hreaches), ?_⟩
    obtain ⟨x, -, hxa⟩ := hreaches
    obtain ⟨b, -, hba⟩ := Relation.TransGen.tail'_iff.1 hxa
    exact h b a hba.1

theorem AnswersClosed.request {w w' : WorkerThread} (h : AnswersClosed w) {requestId : UInt64}
    {addresses : List UInt64} {frame : UInt64} {mem : Memory} {classOf : ClassLookup}
    (hstep : w.findReferences requestId addresses frame mem classOf = some w') :
    AnswersClosed w' := by
  have hdangling := h.noDangling.refreshParents frame mem
  have hanswers : (w.refreshParents frame mem).answers = w.answers := by
    unfold refreshParents
    split_ifs <;> rfl
  have hvisited : visited (w.refreshParents frame mem).allocations ⊆ visited w.allocations := by
    unfold refreshParents
    split_ifs
    · rw [visited_doGcSync]
      exact Finset.empty_subset _
    · exact Finset.Subset.refl _
  obtain ⟨hmarked, buffer, hfind⟩ :=
    findReferencesInternal_spec hdangling requestId addresses classOf
  rw [findReferences, hfind, Option.some.injEq] at hstep
  generalize hm : (w.refreshParents frame mem).allocations = m at *
  generalize (w.refreshParents frame mem).fullName = fullName at *
  have hnew : w'.answers = w.answers ++
      [describe m classOf fullName (referenceTraversal m addresses).popped] := by
    rw [← hstep, answers_report, ← hanswers]
    rfl
  have hallocations : visited w'.allocations = (referenceTraversal m addresses).marked := by
    rw [← hmarked, ← hstep]
    rfl
  -- what is marked after the request has been reported by the end of it
  have hreported : ∀ a ∈ (referenceTraversal m addresses).marked, a ∈ reported w'.answers := by
    intro a ha
    rw [hnew, reported_append, List.mem_append]
    rcases marked_of_request hdangling addresses classOf fullName ha with hold | hin
    · exact Or.inl (h.visited_reported a (hvisited hold))
    · refine Or.inr ?_
      rwa [reported, List.flatten_singleton]
  refine ⟨?_, fun a ha => hreported a (hallocations ▸ ha), fun l hl => ?_⟩
  · rw [← hstep]
    exact hdangling.visitAll _
  · rw [hnew] at hl hreported
    rcases List.prefix_concat_iff.1 hl with rfl | hl
    · intro r hr b hb
      rw [List.flatten_append, List.mem_append] at hr
      rcases hr with hr | hr
      · rw [reported_append]
        exact List.mem_append_left _ (h.closed _ List.prefix_rfl r hr b hb)
      · rw [List.flatten_singleton] at hr
        obtain ⟨hpopped, hparents⟩ := parents_of_mem_describe hr
        rw [hparents] at hb
        exact hreported b (Worklist.succ_of_popped hpopped b hb)
    · exact h.closed l hl

/-- **Answers stay closed.** -/
theorem AnswersClosed.step {w w' : WorkerThread} {a : Action} (h : AnswersClosed w)
    (hstep : w.step a = some w') : AnswersClosed w' := by
  cases ha : a.isRequest with
  | false =>
    obtain ⟨hanswers, hvisited⟩ := step_answers ha hstep
    refine ⟨h.noDangling.step hstep, fun a ha => ?_, ?_⟩
    · rw [hanswers]
      exact h.visited_reported a (hvisited ha)
    · rw [hanswers]
      exact h.closed
  | true =>
    cases a with
    | findReferences requestId addresses frame mem classOf => exact h.request hstep
    | _ => cases ha

theorem answersClosed_of_run {l : List Action} {w : WorkerThread}
    (hrun : Run.run WorkerThread.step initial l = some w) : AnswersClosed w := by
  refine Run.reachable_invariant (I := AnswersClosed) (fun _ _ _ h hstep => h.step hstep) ?_
    ⟨l, hrun⟩
  refine ⟨noDangling_initial, fun a ha => ?_, fun l hl => ?_⟩
  · exact absurd ha (Finset.notMem_empty a)
  · rw [List.prefix_nil.1 hl]
    intro r hr
    cases hr

end WorkerThread

namespace ObjectReferencesModel

/-- The objects below a node are those that refer to its own. -/
theorem children_perm {references : References} {addresses : List UInt64}
    {children : Forest TreeNode}
    (hclosed : ∀ address ref, references.find address = some ref → ∀ parent ∈ ref.parents,
      (references.find parent).isSome)
    (h : (children.map fun child => child.label.shown) =
      typeGroups (entries references addresses)) :
    (children.flatMap fun child => child.label.addresses).Perm
      (addresses.flatMap fun address =>
        (references.find address).elim [] ReceivedReferences.parents) := by
  have hsnd : (children.flatMap fun child => child.label.addresses) =
      (typeGroups (entries references addresses)).flatMap Prod.snd := by
    rw [← h, List.flatMap_map]
    rfl
  have hentries : (entries references addresses).map ReceivedReferences.address =
      addresses.flatMap fun address =>
        (references.find address).elim [] ReceivedReferences.parents := by
    rw [entries, List.map_flatMap]
    refine List.flatMap_congr fun address _ => ?_
    cases hfind : references.find address with
    | none => rfl
    | some ref =>
      show (ref.parents.filterMap references.find).map ReceivedReferences.address = ref.parents
      rw [List.map_filterMap]
      refine Eq.trans (List.filterMap_congr fun parent hparent => ?_) List.filterMap_some
      obtain ⟨ref', href'⟩ := Option.isSome_iff_exists.1 (hclosed address ref hfind parent hparent)
      rw [href', Option.map_some, references.keyed parent ref' href']
  rw [hsnd, ← hentries]
  exact Grouping.flatMap_groups_perm (entries references addresses)

/-- **No parent is missing from the tree.**  A tree that got the answers of a worker thread so far,
or the first ones of them, whatever else happened in between, finds the entries of all parents, and
below each filled node there are exactly the objects that refer to those of the node. -/
theorem referrers_of_run {l : List WorkerThread.Action} {w : WorkerThread}
    {events : List Action} {t : ObjectReferencesModel}
    (hworker : Run.run WorkerThread.step WorkerThread.initial l = some w)
    (htree : Run.run ObjectReferencesModel.step {} events = some t)
    (harrived : events.filterMap Action.answer <+:
      w.answers.map fun answer => answer.map ObjectReferences.received) :
    (∀ address ref, t.references.find address = some ref → ∀ parent ∈ ref.parents,
      (t.references.find parent).isSome) ∧
    ∀ index node, Forest.get t.roots index = some node → Filled t.roots index →
      (node.children.flatMap fun child => child.label.addresses).Perm
        (node.label.addresses.flatMap fun address =>
          (t.references.find address).elim [] ReceivedReferences.parents) := by
  obtain ⟨href, addresses, hinv⟩ := stored_of_run treeInv_nil htree
  obtain ⟨answers, hprefix, hmap⟩ := List.prefix_map_iff.1 harrived
  have hflat : (events.filterMap Action.answer).flatten =
      answers.flatten.map ObjectReferences.received := by
    rw [hmap, List.map_flatten]
  have hfind : ∀ address, t.references.find address =
      given (answers.flatten.map ObjectReferences.received) address := by
    intro address
    rw [href, hflat, find_foldl_insert, stored]
    exact Option.none_or
  have hclosed : ∀ address ref, t.references.find address = some ref → ∀ parent ∈ ref.parents,
      (t.references.find parent).isSome := by
    intro address ref hget parent hparent
    rw [hfind] at hget
    obtain ⟨r, hr, rfl⟩ := List.mem_map.1 (List.mem_of_find?_eq_some hget)
    obtain ⟨r', hr', haddr⟩ := List.mem_map.1
      ((WorkerThread.answersClosed_of_run hworker).closed answers hprefix r hr parent hparent)
    rw [hfind, given, List.find?_isSome]
    exact ⟨r'.received, List.mem_map_of_mem hr', decide_eq_true haddr⟩
  refine ⟨hclosed, fun index node hnode hfilled => children_perm hclosed ?_⟩
  exact hinv.showsReferences.children index node hnode hfilled

/-- A run in which the object at 32 is asked for twice. -/
def askedTwice : List WorkerThread.Action :=
  WorkerThread.linkedRun ++
    [.findReferences 1 [32] 1 WorkerThread.linkedMemory fun _ => some ⟨none, .empty⟩,
      .findReferences 2 [32] 1 WorkerThread.linkedMemory fun _ => some ⟨none, .empty⟩]

/-- The two answers; the second one leaves the parent out.  The node is opened in between. -/
def shownTwice : List Action :=
  [.update [32] [⟨32, (CString.ofLit "<global>.").bytes, [16]⟩,
      ⟨16, (CString.ofLit "<global>. (Root)").bytes, []⟩],
    .openNode [0], .update [32] [⟨32, (CString.ofLit "<global>.").bytes, [16]⟩]]

theorem referrers_of_run_askedTwice : ∃ w t,
    Run.run WorkerThread.step WorkerThread.initial askedTwice = some w ∧
    Run.run ObjectReferencesModel.step {} shownTwice = some t ∧
    ∀ address ref, t.references.find address = some ref → ∀ parent ∈ ref.parents,
      (t.references.find parent).isSome :=
  ⟨_, _, rfl, rfl,
    (@referrers_of_run askedTwice _ shownTwice _ rfl rfl (by decide +kernel)).1⟩

end ObjectReferencesModel

end Owlcat
