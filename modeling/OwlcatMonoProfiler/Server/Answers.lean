import OwlcatMonoProfiler.Server.Reachability
import OwlcatMonoProfiler.Server.Requests

/-!
# The answer to a reference request

What `find_references_internal` passes to `report_references`, as a whole: which objects it
reports, with which parents, remarks and class names, and how often.

* `answer`: the list of the last call of `report_references`;
* `Reported`: the objects a request comes to, said without the traversal;
* `remarks`, `bufferTexts`: the two parts of a type text.  The class name is what the static buffer
  holds when the object is reported;
* `answer_eq`: every answer the code gives is the description of a finished traversal;
* `findReferences_closure`: without marks left from before, the answer is the closure under parents;
* `answer_nodup_iff`: when no object is reported twice;
* `ownType_iff`: when type texts depend on nothing but the object.
-/

namespace Owlcat

namespace WorkerThread

/-- The objects passed to `report_references` by the last call of the events sink. -/
def answer (w : WorkerThread) : List ObjectReferences :=
  match w.lastReport with
  | some (.references _ references) => references
  | _ => []

/-- `a` is one of the objects a request for `addresses` comes to: a tracked one that is asked for,
or an ancestor through objects that are not marked as visited. -/
def Reported (m : Dict UInt64 AllocInfo) (addresses : List UInt64) (a : UInt64) : Prop :=
  a ∈ m ∧ (a ∈ addresses ∨ Worklist.Reaches (parentsOf m) (visited m) addresses a)

/-- The remarks behind the class name. -/
def remarks (alloc : AllocInfo) : CString :=
  match alloc.isRoot, alloc.tmpAllocated with
  | true, true => .ofLit " (Root)"
  | true, false => .ofLit " (Root) (Deleted)"
  | false, true => .empty
  | false, false => .ofLit " (Deleted)"

/-- What the static buffer holds when each of the addresses is reported. -/
def bufferTexts (classOf : ClassLookup) : CString → List UInt64 → List CString
  | _, [] => []
  | fullName, addr :: l =>
    readFullName classOf addr fullName :: bufferTexts classOf (readFullName classOf addr fullName) l

/-- One reported object is what the map says about it, with the class name `name`. -/
def DescribedBy (m : Dict UInt64 AllocInfo) (r : ObjectReferences) (name : CString) : Prop :=
  ∃ alloc, m.lookup r.addr = some alloc ∧ r.type = name ++ remarks alloc ∧ r.parents = alloc.parents

/-! ### Answers and traversals -/

theorem typeText_eq (name : CString) (alloc : AllocInfo) :
    typeText name alloc = name ++ remarks alloc := by
  apply CString.eq_of_bytes
  cases hr : alloc.isRoot <;> cases ht : alloc.tmpAllocated <;>
    simp only [typeText, remarks, hr, ht, CString.bytes_append, List.append_assoc] <;> rfl

theorem forall₂_describe (m : Dict UInt64 AllocInfo) (classOf : ClassLookup) (fullName : CString)
    (l : List UInt64) :
    List.Forall₂ (DescribedBy m) (describe m classOf fullName l)
      (bufferTexts classOf fullName ((describe m classOf fullName l).map (·.addr))) := by
  induction l generalizing fullName with
  | nil => exact .nil
  | cons addr l ih =>
    cases ha : m.lookup addr with
    | none =>
      rw [describe, ha]
      exact ih fullName
    | some alloc =>
      rw [describe, ha]
      exact .cons ⟨alloc, ha, typeText_eq _ _, rfl⟩ (ih _)

theorem answer_report (w : WorkerThread) (requestId : UInt64) (l : List ObjectReferences) :
    (w.report (.references requestId l)).answer = l := by
  rw [answer, lastReport_report]

/-- A request that returns has followed parents in the map only, and its stack has become empty. -/
theorem answer_eq {w w' : WorkerThread} {requestId : UInt64} {addresses : List UInt64}
    {classOf : ClassLookup}
    (h : w.findReferencesInternal requestId addresses classOf = some w') :
    w'.lastReport = some (.references requestId w'.answer) ∧
      w'.answer = describe w.allocations classOf w.fullName
        (referenceTraversal w.allocations addresses).popped ∧
      (referenceTraversal w.allocations addresses).stack = [] ∧
      ∀ x ∈ (referenceTraversal w.allocations addresses).popped,
        ∀ y ∈ parentsOf w.allocations x, y ∈ w.allocations := by
  obtain ⟨s, hs, rfl⟩ := Option.map_eq_some_iff.1 h
  have hclosed := mem_of_search classOf _ (Option.isSome_of_eq_some hs)
  obtain ⟨buffer, hsearch, -⟩ := search_eq classOf _ addresses.reverse [] w.fullName hclosed
  rw [hsearch, Option.some.injEq] at hs
  subst hs
  refine ⟨?_, ?_, loop_parentsOf_stack _ _ hclosed, hclosed⟩
  · rw [answer_report]
    exact lastReport_report _ _
  · rw [answer_report]
    rfl

/-- The objects in an answer are those the request comes to. -/
theorem mem_answer_iff {w w' : WorkerThread} {requestId : UInt64} {addresses : List UInt64}
    {classOf : ClassLookup}
    (h : w.findReferencesInternal requestId addresses classOf = some w') {a : UInt64} :
    a ∈ w'.answer.map (·.addr) ↔ Reported w.allocations addresses a := by
  obtain ⟨-, hanswer, hstack, -⟩ := answer_eq h
  have hpopped := Worklist.mem_popped hstack (y := a)
  have hreach : Worklist.Reaches (parentsOf w.allocations) (visited w.allocations)
      addresses.reverse a ↔ Worklist.Reaches (parentsOf w.allocations) (visited w.allocations)
      addresses a := by
    simp only [Worklist.Reaches, List.mem_reverse]
  rw [hreach, List.mem_reverse] at hpopped
  rw [hanswer, map_addr_describe, List.mem_filter, Reported, ← hpopped, decide_eq_true_iff]
  exact and_comm

/-! ### The closure under parents -/

/-- More fuel than the search needs makes no difference. -/
theorem search_of_finished (classOf : ClassLookup) {n k : ℕ} (hnk : n ≤ k) {s t : Search}
    (h : search classOf n s = some t) (ht : t.interestingAddresses = []) :
    search classOf k s = some t := by
  induction n generalizing k s with
  | zero =>
    cases h
    cases k with
    | zero => rfl
    | succ k => rw [search, ht]
  | succ n ih =>
    obtain ⟨k, rfl⟩ : ∃ k', k = k' + 1 := ⟨k - 1, by omega⟩
    rw [search] at h ⊢
    cases hs : s.interestingAddresses with
    | nil =>
      rw [hs] at h
      exact h
    | cons addr stack =>
      simp only [hs] at h ⊢
      cases ha : s.allocations.lookup addr with
      | none =>
        simp only [ha] at h ⊢
        exact ih (by omega) h
      | some alloc =>
        simp only [ha] at h ⊢
        cases hfold : alloc.parents.foldlM visitParent (s.allocations, stack) with
        | none => simp [hfold] at h
        | some p =>
          simp only [hfold] at h ⊢
          exact ih (by omega) h

/-- What a request answers when no object is marked as visited at its start. -/
structure AnswersClosure (w : WorkerThread) (requestId : UInt64) (addresses : List UInt64)
    (classOf : ClassLookup) (w' : WorkerThread) : Prop where
  /-- The stack is empty after as many iterations as there are addresses and objects. -/
  terminates : ∃ s, s.interestingAddresses = [] ∧
    ∀ n ≥ addresses.length + w.allocations.keys.length,
      search classOf n ⟨w.allocations, addresses.reverse, [], w.fullName⟩ = some s
  returns : w.findReferencesInternal requestId addresses classOf = some w'
  reports : w'.eventsSink = w.eventsSink ++ [.references requestId w'.answer]
  mem_iff : ∀ a, a ∈ w'.answer.map (·.addr) ↔ a ∈ w.allocations ∧
    ∃ x ∈ addresses, Relation.ReflTransGen (fun a b => b ∈ parentsOf w.allocations a) x a
  describes : List.Forall₂ (DescribedBy w.allocations) w'.answer
    (bufferTexts classOf w.fullName (w'.answer.map (·.addr)))

/-- **The reference search computes the closure under parents.** -/
theorem findReferences_closure {w : WorkerThread} (hparents : NoDangling w.allocations)
    (hclear : ∀ a alloc, w.allocations.lookup a = some alloc → alloc.tmpVisited = false)
    (requestId : UInt64) (addresses : List UInt64) (classOf : ClassLookup) :
    ∃ w', w.AnswersClosure requestId addresses classOf w' := by
  have hvisited := visited_eq_empty hclear
  obtain ⟨buffer, hsearch, -⟩ := search_eq classOf
    (addresses.length + w.allocations.keys.length) addresses.reverse [] w.fullName
    fun x _ => hparents x
  obtain ⟨-, buffer', hfind⟩ := findReferencesInternal_spec hparents requestId addresses classOf
  refine ⟨_, ⟨_, ?_, fun n hn => search_of_finished classOf hn hsearch ?_⟩, hfind, ?_, ?_, ?_⟩
  · exact referenceTraversal_stack hparents addresses
  · exact referenceTraversal_stack hparents addresses
  · rw [answer_report]
    rfl
  · intro a
    rw [mem_answer_iff hfind, Reported, hvisited]
    refine and_congr_right fun ha => ?_
    constructor
    · rintro (hreq | ⟨x, hx, hxa⟩)
      · exact ⟨a, hreq, .refl⟩
      · exact ⟨x, hx, (Relation.TransGen.mono (fun _ _ h => h.1) _ _ hxa).to_reflTransGen⟩
    · rintro ⟨x, hx, hxa⟩
      rcases Relation.reflTransGen_iff_eq_or_transGen.1 hxa with rfl | hxa
      · exact Or.inl hx
      · refine Or.inr ⟨x, hx, Relation.TransGen.mono (fun _ b h => ?_) _ _ hxa⟩
        exact ⟨h, Finset.notMem_empty b⟩
  · rw [answer_report]
    exact forall₂_describe _ _ _ _

/-- Two objects that are each other's parents. -/
def cycle : Dict UInt64 AllocInfo :=
  ⟨[⟨16, { size := 8, parents := [32] }⟩, ⟨32, { size := 8, parents := [16] }⟩],
    by rw [List.NodupKeys]; decide⟩

theorem lookup_cycle {a : UInt64} {alloc : AllocInfo} (ha : cycle.lookup a = some alloc) :
    alloc = { size := 8, parents := [32] } ∨ alloc = { size := 8, parents := [16] } := by
  have he : (⟨a, alloc⟩ : Sigma fun _ : UInt64 => AllocInfo) ∈ cycle.entries :=
    AList.mem_lookup_iff.1 ha
  simp only [cycle, List.mem_cons, List.not_mem_nil, or_false, Sigma.mk.injEq, heq_eq_eq] at he
  exact he.imp And.right And.right

theorem tmpVisited_cycle (a : UInt64) (alloc : AllocInfo) (ha : cycle.lookup a = some alloc) :
    alloc.tmpVisited = false := by
  rcases lookup_cycle ha with rfl | rfl <;> rfl

/-- A request for one of them and for an address that is not tracked. -/
theorem findReferences_closure_cycle :
    ∃ w', WorkerThread.AnswersClosure { allocations := cycle } 1 [16, 48] (fun _ => none) w' := by
  refine findReferences_closure (w := { allocations := cycle }) ?_ tmpVisited_cycle 1 [16, 48] _
  intro a b hb
  change b ∈ parentsOf cycle a at hb
  unfold parentsOf at hb
  cases ha : cycle.lookup a with
  | none => simp [ha] at hb
  | some alloc =>
    rw [ha] at hb
    rcases lookup_cycle ha with rfl | rfl <;> rw [List.mem_singleton.1 hb] <;> decide

/-! ### Objects that are reported twice -/

/-- **No object is reported twice exactly when no requested object is an ancestor of a requested
one**, itself included.  The requested addresses are not marked as visited when the search
starts, so one that is met again is pushed again. -/
theorem answer_nodup_iff {w w' : WorkerThread} {requestId : UInt64} {addresses : List UInt64}
    {classOf : ClassLookup} (hnodup : addresses.Nodup)
    (hclear : ∀ a alloc, w.allocations.lookup a = some alloc → alloc.tmpVisited = false)
    (h : w.findReferencesInternal requestId addresses classOf = some w') :
    (w'.answer.map (·.addr)).Nodup ↔ ∀ a ∈ addresses, a ∈ w.allocations →
      ¬∃ x ∈ addresses, Relation.TransGen (fun a b => b ∈ parentsOf w.allocations a) x a := by
  classical
  have hvisited := visited_eq_empty hclear
  obtain ⟨-, hanswer, hstack, -⟩ := answer_eq h
  have hcount := Worklist.count_popped hstack
  have hreach : ∀ a, Worklist.Reaches (parentsOf w.allocations) (visited w.allocations)
      addresses.reverse a ↔
      ∃ x ∈ addresses, Relation.TransGen (fun a b => b ∈ parentsOf w.allocations a) x a := by
    intro a
    simp only [Worklist.Reaches, List.mem_reverse, hvisited, Finset.notMem_empty,
      not_false_eq_true, and_true]
  simp only [hreach] at hcount
  rw [hanswer, map_addr_describe, List.nodup_iff_count_le_one]
  constructor
  · intro hle a ha hmem hx
    have hone := hle a
    rw [List.count_filter (by simpa using hmem)] at hone
    have htwo := hcount a
    rw [if_pos hx, List.count_reverse, List.count_eq_one_of_mem hnodup ha] at htwo
    change List.count a (referenceTraversal w.allocations addresses).popped = 1 + 1 at htwo
    omega
  · intro hno a
    by_cases hmem : a ∈ w.allocations
    · rw [List.count_filter (by simpa using hmem)]
      change List.count a (Worklist.loop _ _ _ _).popped ≤ 1
      rw [hcount a, List.count_reverse]
      by_cases ha : a ∈ addresses
      · rw [if_neg (hno a ha hmem), List.count_eq_one_of_mem hnodup ha]
      · rw [List.count_eq_zero_of_not_mem ha]
        split_ifs <;> omega
    · rw [List.count_eq_zero_of_not_mem]
      · omega
      · exact fun ha => hmem (of_decide_eq_true (List.mem_filter.1 ha).2)

/-- A request for an object on a cycle. -/
theorem answer_nodup_iff_cycle : ∃ w',
    WorkerThread.findReferencesInternal { allocations := cycle } 1 [16] (fun _ => none) = some w' ∧
    ((w'.answer.map (·.addr)).Nodup ↔ ∀ a ∈ ([16] : List UInt64), a ∈ cycle →
      ¬∃ x ∈ ([16] : List UInt64),
        Relation.TransGen (fun a b => b ∈ parentsOf cycle a) x a) :=
  ⟨_, rfl, answer_nodup_iff (w := { allocations := cycle }) (by decide) tmpVisited_cycle rfl⟩

/-- The object on the cycle is reported twice. -/
theorem requested_object_reported_twice :
    ¬ ∀ (w w' : WorkerThread) (requestId : UInt64) (addresses : List UInt64)
      (classOf : ClassLookup), addresses.Nodup →
      (∀ a alloc, w.allocations.lookup a = some alloc → alloc.tmpVisited = false) →
      w.findReferencesInternal requestId addresses classOf = some w' →
      (w'.answer.map (·.addr)).Nodup := by
  intro h
  have h' := h { allocations := cycle } _ 1 [16] (fun _ => none) (by decide) tmpVisited_cycle rfl
  revert h'
  decide

/-! ### Type texts -/

/-- In an answer the type text of each object is a function of the outcome of its own class lookup
and of its flags: any other answer with the same outcome and flags shows the same text. -/
def OwnTypes (w : WorkerThread) (classOf : ClassLookup) (w' : WorkerThread) : Prop :=
  ∀ (v v' : WorkerThread) (requestId : UInt64) (addresses : List UInt64) (classOf' : ClassLookup),
    v.findReferencesInternal requestId addresses classOf' = some v' →
    ∀ r ∈ w'.answer, ∀ r' ∈ v'.answer, classOf' r'.addr = classOf r.addr →
    (∃ alloc alloc', w.allocations.lookup r.addr = some alloc ∧
      v.allocations.lookup r'.addr = some alloc' ∧ alloc'.isRoot = alloc.isRoot ∧
      alloc'.tmpAllocated = alloc.tmpAllocated) → r'.type = r.type

/-- The name in a type text is the object's own if there is one.  If no class can be read, it is
what the static buffer held before. -/
theorem type_of_mem_describe {m : Dict UInt64 AllocInfo} {classOf : ClassLookup}
    {fullName : CString} {l : List UInt64} {r : ObjectReferences}
    (hr : r ∈ describe m classOf fullName l) :
    ∃ name alloc, m.lookup r.addr = some alloc ∧ r.type = typeText name alloc ∧
      (∀ klass, classOf r.addr = some klass → name = getFullClassName klass) ∧
      ((∀ a, classOf a = none) → name = fullName) := by
  induction l generalizing fullName with
  | nil => simp [describe] at hr
  | cons addr l ih =>
    cases ha : m.lookup addr with
    | none =>
      rw [describe, ha] at hr
      exact ih hr
    | some alloc =>
      simp only [describe, ha] at hr
      rcases List.mem_cons.1 hr with rfl | hr
      · refine ⟨readFullName classOf addr fullName, alloc, ha, rfl, fun klass hk => ?_, fun h => ?_⟩
        · rw [readFullName, hk]
        · rw [readFullName, h addr]
      · obtain ⟨name, alloc', hl, htype, hown, hnone⟩ := ih hr
        refine ⟨name, alloc', hl, htype, hown, fun h => ?_⟩
        rw [hnone h, readFullName, h addr]

/-- **Type texts depend on the objects alone exactly when every reported object has a class that
can be read.** -/
theorem ownTypes_iff {w w' : WorkerThread} {requestId : UInt64} {addresses : List UInt64}
    {classOf : ClassLookup}
    (h : w.findReferencesInternal requestId addresses classOf = some w') :
    w.OwnTypes classOf w' ↔ ∀ a, Reported w.allocations addresses a → (classOf a).isSome := by
  obtain ⟨-, hanswer, -, hclosed⟩ := answer_eq h
  constructor
  · intro hown a ha
    by_contra hnone
    rw [Option.not_isSome_iff_eq_none] at hnone
    obtain ⟨r, hr, rfl⟩ := List.mem_map.1 ((mem_answer_iff h).2 ha)
    have hr' := hr
    rw [hanswer] at hr'
    obtain ⟨name, alloc, hl, htype, -⟩ := type_of_mem_describe hr'
    -- a second run that differs in the text left in the buffer, and in the other classes
    obtain ⟨t, ht⟩ : ∃ t, t ≠ name := by
      by_cases hname : name = .empty
      · exact ⟨getFullClassName ⟨none, .empty⟩, by rw [hname]; decide⟩
      · exact ⟨.empty, Ne.symm hname⟩
    obtain ⟨buffer, hsearch, -⟩ := search_eq (fun _ => none) _ addresses.reverse [] t hclosed
    have hsecond : ∃ v', { w with fullName := t }.findReferencesInternal requestId addresses
        (fun _ => none) = some v' := by
      rw [findReferencesInternal, hsearch]
      exact ⟨_, rfl⟩
    obtain ⟨v', hv'⟩ := hsecond
    obtain ⟨r', hr', haddr⟩ := List.mem_map.1 ((mem_answer_iff hv').2 ha)
    have hsame := hown _ v' _ _ _ hv' r hr r' hr' hnone.symm
      ⟨alloc, alloc, hl, by rw [haddr]; exact hl, rfl, rfl⟩
    rw [(answer_eq hv').2.1] at hr'
    obtain ⟨name', alloc', hl', htype', -, hbuffer⟩ := type_of_mem_describe hr'
    have halloc : alloc' = alloc := by
      rw [haddr] at hl'
      exact Option.some.inj (hl'.symm.trans hl)
    rw [htype', htype, halloc, hbuffer fun _ => rfl] at hsame
    exact ht (typeText_injective alloc hsame)
  · intro hread v v' requestId' addresses' classOf' hv r hr r' hr' hclass hflags
    obtain ⟨klass, hklass⟩ := Option.isSome_iff_exists.1
      (hread r.addr ((mem_answer_iff h).1 (List.mem_map.2 ⟨r, hr, rfl⟩)))
    rw [hanswer] at hr
    rw [(answer_eq hv).2.1] at hr'
    obtain ⟨name, alloc, hl, htype, hname, -⟩ := type_of_mem_describe hr
    obtain ⟨name', alloc', hl', htype', hname', -⟩ := type_of_mem_describe hr'
    obtain ⟨b, b', hb, hb', hroot, htmp⟩ := hflags
    rw [hl, Option.some.injEq] at hb
    rw [hl', Option.some.injEq] at hb'
    subst hb hb'
    rw [htype, htype', hname klass hklass, hname' klass (hclass.trans hklass), typeText, typeText,
      hroot, htmp]

/-- A request for an object whose class can be read. -/
theorem ownTypes_iff_cycle : ∃ w', WorkerThread.findReferencesInternal { allocations := cycle } 1
      [16] (fun _ => some ⟨none, .empty⟩) = some w' ∧
    (WorkerThread.OwnTypes { allocations := cycle } (fun _ => some ⟨none, .empty⟩) w' ↔
      ∀ a, Reported cycle [16] a → ((fun _ => some ⟨none, .empty⟩ : ClassLookup) a).isSome) :=
  ⟨_, rfl, ownTypes_iff (w := { allocations := cycle }) rfl⟩

/-- An object whose class cannot be read shows the name of the object reported before. -/
theorem type_of_another_object :
    ¬ ∀ (w w' : WorkerThread) (requestId : UInt64) (addresses : List UInt64)
      (classOf : ClassLookup), w.findReferencesInternal requestId addresses classOf = some w' →
      w.OwnTypes classOf w' := by
  intro h
  have h' := h { allocations := cycle } _ 1 [16] (fun a => if a = 16 then some ⟨none, .empty⟩
    else none) rfl { allocations := cycle } _ 1 [16] (fun _ => none) rfl
    ⟨32, .ofLit "<global>. (Deleted)", [16]⟩ (by decide) ⟨32, .ofLit " (Deleted)", [16]⟩
    (by decide) rfl ⟨{ size := 8, parents := [16] }, { size := 8, parents := [16] }, rfl, rfl, rfl,
      rfl⟩
  revert h'
  decide

end WorkerThread

end Owlcat
