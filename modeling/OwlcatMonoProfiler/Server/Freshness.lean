import OwlcatMonoProfiler.Server.Answers

/-!
# How fresh the answers are

`find_references` updates marks and parents only when the request's frame is later than that of
the last collection, so an answer may show what an earlier collection saw.

* `Snapshot`: what a collection works on;
* `lastSnapshot`: the snapshot of the last collection of a run;
* `Fresh`: what an answer should say about an object that is reachable now;
* `Records`: in every reachable state, marks and parents are those of the last snapshot;
* `answer_fresh_iff`: when an answer is fresh.
-/

namespace Owlcat

namespace WorkerThread

/-- What a collection works on: the memory, the root areas, the tracked objects. -/
structure Snapshot where
  mem : Memory
  roots : List RootInfo
  sizes : UInt64 → Option UInt32

/-- `a` is a tracked object that can be reached. -/
def Snapshot.Finds (s : Snapshot) (a : UInt64) : Prop := Reachable s.mem s.roots s.sizes a

/-- `b` can be reached and stores the address of the tracked object `a`. -/
def Snapshot.Links (s : Snapshot) (b a : UInt64) : Prop :=
  s.Finds b ∧ (s.sizes a).isSome ∧ ∃ size, s.sizes b = some size ∧ (Stored s.mem b size a).Nonempty

/-- What a collection would work on now. -/
def snapshot (w : WorkerThread) (mem : Memory) : Snapshot := ⟨mem, w.roots, sizes w.allocations⟩

/-- The snapshot of the collection an action runs, if it runs one. -/
def collectionOf (w : WorkerThread) : Action → Option Snapshot
  | .collect _ _ mem => some (w.snapshot mem)
  | .findReferences _ _ frame mem _ =>
    if frame > w.lastGcFrame then some (w.snapshot mem) else none
  | _ => none

/-- The snapshot of the last collection after a list of actions, `last` before them. -/
def lastSnapshot : WorkerThread → Option Snapshot → List Action → Option Snapshot
  | _, last, [] => last
  | w, last, a :: l =>
    match w.step a with
    | none => last
    | some w' => lastSnapshot w' ((w.collectionOf a).or last) l

/-- An answer is fresh: no object that can be reached is labelled as deleted, and each shows all
its parents. -/
def Fresh (now : Snapshot) (classOf : ClassLookup) (fullName : CString)
    (references : List ObjectReferences) : Prop :=
  List.Forall₂ (fun r name => now.Finds r.addr →
      (r.type = name ∨ r.type = name ++ .ofLit " (Root)") ∧ ∀ b, now.Links b r.addr → b ∈ r.parents)
    references (bufferTexts classOf fullName (references.map (·.addr)))

/-- The last collection saw that `a` can be reached, and every pointer to it that there is now. -/
def UpToDate (last : Option Snapshot) (now : Snapshot) (a : UInt64) : Prop :=
  (∃ s ∈ last, s.Finds a) ∧ ∀ b, now.Links b a → ∃ s ∈ last, s.Links b a

/-- What is recorded for an object: its mark and its parents. -/
def recorded (m : Dict UInt64 AllocInfo) (a : UInt64) : Option (Bool × List UInt64) :=
  (m.lookup a).map fun alloc => (alloc.tmpAllocated, alloc.parents)

/-- The records of a state are those of the last collection.  Once the thread has left its loop, no
object is entered any more. -/
structure Records (last : Option Snapshot) (w : WorkerThread) : Prop where
  mark : ∀ a mark parents, recorded w.allocations a = some (mark, parents) →
    (mark ↔ ∃ s ∈ last, s.Finds a)
  parents : ∀ a mark parents, recorded w.allocations a = some (mark, parents) →
    ∀ b, b ∈ parents ↔ ∃ s ∈ last, s.Links b a
  tracked : w.exited = false → ∀ s ∈ last, ∀ a, s.Finds a → a ∈ w.allocations

/-! ### What a step does to the records -/

theorem mem_iff_recorded {m : Dict UInt64 AllocInfo} {a : UInt64} :
    a ∈ m ↔ (recorded m a).isSome := by
  rw [← AList.lookup_isSome, recorded, Option.isSome_map]

theorem recorded_visitAll (l : List UInt64) (m : Dict UInt64 AllocInfo) :
    recorded (visitAll l m) = recorded m := by
  funext a
  rw [recorded, lookup_visitAll, Option.map_map]
  rfl

theorem Snapshot.Links.finds {s : Snapshot} {b a : UInt64} (h : s.Links b a) : s.Finds a := by
  obtain ⟨hb, ha, size, hsize, hstored⟩ := h
  exact .stored hb hsize hstored ha

/-- A state with the same records and no thread back in its loop. -/
theorem Records.congr {last : Option Snapshot} {w w' : WorkerThread} (h : Records last w)
    (hrec : recorded w'.allocations = recorded w.allocations) (hexit : w'.exited = w.exited) :
    Records last w' := by
  refine ⟨fun a => ?_, fun a => ?_, fun he s hs a ha => ?_⟩
  · rw [hrec]
    exact h.mark a
  · rw [hrec]
    exact h.parents a
  · rw [mem_iff_recorded, hrec, ← mem_iff_recorded]
    exact h.tracked (hexit ▸ he) s hs a ha

/-- A new object is entered without a mark; the last collection cannot have found one at its
address. -/
theorem Records.enterAllocation {last : Option Snapshot} {w : WorkerThread} (h : Records last w)
    (hexit : w.exited = false) (frame addr : UInt64) (size : UInt32) :
    Records last (w.enterAllocation frame addr size) := by
  unfold WorkerThread.enterAllocation
  cases haddr : w.allocations.lookup addr with
  | none =>
    have hnot : addr ∉ w.allocations := AList.lookup_eq_none.1 haddr
    have hrec : ∀ a, recorded (w.allocations.insert addr { size := size }) a =
        if a = addr then some (false, []) else recorded w.allocations a := by
      intro a
      unfold recorded
      split_ifs with ha
      · rw [ha, AList.lookup_insert]
        rfl
      · rw [AList.lookup_insert_ne ha]
    have hlost : ¬∃ s ∈ last, s.Finds addr := by
      rintro ⟨s, hs, hfinds⟩
      exact hnot (h.tracked hexit s hs addr hfinds)
    refine ⟨fun a mark parents hr => ?_, fun a mark parents hr b => ?_, fun he s hs a ha => ?_⟩
    · rw [show recorded _ a = _ from hrec a] at hr
      split_ifs at hr with ha
      · cases hr
        rw [ha]
        simpa using hlost
      · exact h.mark a mark parents hr
    · rw [show recorded _ a = _ from hrec a] at hr
      split_ifs at hr with ha
      · cases hr
        rw [ha]
        simp only [List.not_mem_nil, false_iff]
        rintro ⟨s, hs, hlinks⟩
        exact hlost ⟨s, hs, hlinks.finds⟩
      · exact h.parents a mark parents hr b
    · exact AList.mem_insert _ |>.2 (Or.inr (h.tracked hexit s hs a ha))
  | some alloc =>
    refine h.congr ?_ rfl
    funext a
    simp only [recorded, Dict.modify, Dict.lookup_mapEntries, Option.map_map]
    congr 1
    funext alloc'
    simp only [Function.comp_apply]
    split_ifs <;> rfl

theorem Records.processItem {last : Option Snapshot} {w : WorkerThread} (h : Records last w)
    (hexit : w.exited = false) (item : WorkItem) : Records last (w.processItem item) := by
  cases item with
  | free frame obj size => exact h.congr rfl rfl
  | alloc frame klass obj size backtrace =>
    simp only [WorkerThread.processItem]
    cases callstack backtrace with
    | none => exact h
    | some str => exact (h.enterAllocation hexit frame obj size).congr rfl rfl

/-- A collection records what it finds. -/
theorem Records.collect (w : WorkerThread) (frame : UInt64) (only : Bool) (mem : Memory) :
    Records (some (w.snapshot mem)) (w.doGcSync frame only mem) := by
  have hentry : ∀ a mark parents,
      recorded (w.doGcSync frame only mem).allocations a = some (mark, parents) →
      ∃ alloc, Marks mem w.roots (sizes w.allocations) a alloc ∧ (sizes w.allocations a).isSome ∧
        alloc.tmpAllocated = mark ∧ alloc.parents = parents := by
    intro a mark parents h
    obtain ⟨alloc, ha, hrec⟩ := Option.map_eq_some_iff.1 h
    have ha' := (lookup_doGcInternal.1 ha).1
    refine ⟨alloc, marks_mark mem w.roots w.allocations ha', ?_, congrArg Prod.fst hrec,
      congrArg Prod.snd hrec⟩
    rw [← sizes_mark mem w.roots w.allocations, sizes, ha']
    rfl
  refine ⟨fun a mark parents h => ?_, fun a mark parents h b => ?_, fun _ s hs a ha => ?_⟩
  · obtain ⟨alloc, hmarks, -, rfl, rfl⟩ := hentry a mark parents h
    simp only [Option.mem_some_iff, exists_eq_left']
    rw [hmarks.tmpAllocated, live_iff]
    rfl
  · obtain ⟨alloc, hmarks, hsz, rfl, rfl⟩ := hentry a mark parents h
    simp only [Option.mem_some_iff, exists_eq_left']
    rw [hmarks.mem_parents, live_iff, mem_pointees]
    simp only [Snapshot.Links, Snapshot.Finds, snapshot, hsz, and_true, true_and]
  · cases hs
    have hexact := doGcInternal_exact w frame mem
    have hsz := sizes_of_live mem w.roots w.allocations (live_iff.2 ha)
    rw [mem_iff_sizes]
    cases only with
    | true =>
      change (sizes (w.doGcInternal frame true mem).2.allocations a).isSome
      rw [hexact.onlyParents.1]
      exact hsz
    | false =>
      obtain ⟨size, hsize⟩ := Option.isSome_iff_exists.1 hsz
      exact Option.isSome_of_eq_some ((hexact.keeps a size).2 ⟨hsize, ha⟩)

theorem Records.refreshParents {last : Option Snapshot} {w : WorkerThread} (h : Records last w)
    (frame : UInt64) (mem : Memory) :
    Records ((if frame > w.lastGcFrame then some (w.snapshot mem) else none).or last)
      (w.refreshParents frame mem) := by
  unfold WorkerThread.refreshParents
  split_ifs
  · exact Records.collect w frame true mem
  · exact h

/-- **Each step keeps the records those of the last collection.** -/
theorem Records.step {last : Option Snapshot} {w w' : WorkerThread} {a : Action}
    (h : Records last w) (hw : NoDangling w.allocations) (hstep : w.step a = some w') :
    Records ((w.collectionOf a).or last) w' := by
  cases a with
  | addAllocation => cases hstep; exact h.congr rfl rfl
  | work =>
    simp only [WorkerThread.step] at hstep
    split_ifs at hstep with hexit
    cases hstep
    rw [Bool.not_eq_true] at hexit
    change Records last w.doWork
    unfold doWork
    split_ifs
    · refine ⟨fun a mark parents hr => ?_, fun a mark parents hr => ?_, fun he => ?_⟩
      · cases hr
      · cases hr
      · cases he
    · cases w.workItems.tryDequeue with
      | none => exact h.congr rfl rfl
      | some p =>
        have h' : Records last { w with workItems := p.2, workItemsEmpty := false } :=
          h.congr rfl rfl
        exact h'.processItem hexit p.1
  | collect frame only mem => cases hstep; exact Records.collect w frame only mem
  | registerRoot => cases hstep; exact h.congr rfl rfl
  | unregisterRoot => cases hstep; exact h.congr rfl rfl
  | findReferences id addrs frame mem classOf =>
    obtain ⟨-, buffer, hfind⟩ :=
      findReferencesInternal_spec (hw.refreshParents frame mem) id addrs classOf
    rw [WorkerThread.step, WorkerThread.findReferences, hfind] at hstep
    cases hstep
    exact (h.refreshParents frame mem).congr (recorded_visitAll _ _) rfl
  | pause => cases hstep; exact h.congr rfl rfl
  | resume => cases hstep; exact h.congr rfl rfl
  | stop => cases hstep; exact h.congr rfl rfl
  | rehash m =>
    simp only [WorkerThread.step] at hstep
    split_ifs at hstep with hperm
    cases hstep
    refine h.congr ?_ rfl
    funext a
    rw [recorded, AList.perm_lookup hperm]
    rfl

/-- **In every reachable state, marks and parents are those of the last collection.** -/
theorem Records.run {l : List Action} {last : Option Snapshot} {w w' : WorkerThread}
    (h : Records last w) (hw : NoDangling w.allocations)
    (hrun : Run.run WorkerThread.step w l = some w') : Records (lastSnapshot w last l) w' := by
  induction l generalizing w last with
  | nil => cases hrun; exact h
  | cons a l ih =>
    obtain ⟨v, hstep, hrun⟩ := Option.bind_eq_some_iff.1 hrun
    rw [lastSnapshot, hstep]
    exact ih (h.step hw hstep) (hw.step hstep) hrun

theorem records_initial : Records none initial := by
  refine ⟨fun a mark parents hr => ?_, fun a mark parents hr => ?_, fun _ s hs => ?_⟩
  · cases hr
  · cases hr
  · cases hs

/-! ### What an answer shows -/

/-- The remarks of a marked object say nothing about a deletion. -/
theorem remarks_iff (name : CString) (alloc : AllocInfo) :
    (name ++ remarks alloc = name ∨ name ++ remarks alloc = name ++ .ofLit " (Root)") ↔
      alloc.tmpAllocated := by
  have hempty : name ++ .empty = name := CString.eq_of_bytes (List.append_nil name.bytes)
  have hname := CString.append_right_inj (s := name) (t := remarks alloc) (u := .empty)
  rw [hempty] at hname
  rw [hname, CString.append_right_inj]
  cases hr : alloc.isRoot <;> cases ht : alloc.tmpAllocated <;> simp only [remarks, hr, ht] <;>
    decide

/-- A property that each pair has or has not because of its first component. -/
theorem forall₂_iff {α β : Type} {P Q : α → β → Prop} {R : α → Prop} {l : List α} {l' : List β}
    (h : List.Forall₂ P l l') (hQ : ∀ a b, P a b → (Q a b ↔ R a)) :
    List.Forall₂ Q l l' ↔ ∀ a ∈ l, R a := by
  induction h with
  | nil => simp
  | cons hab _ ih => rw [List.forall₂_cons, List.forall_mem_cons, ih, hQ _ _ hab]

/-- An answer is fresh where the last collection saw what there is now. -/
theorem fresh_iff {last : Option Snapshot} {w w' : WorkerThread} (hrec : Records last w)
    {requestId : UInt64} {addresses : List UInt64} {classOf : ClassLookup}
    (h : w.findReferencesInternal requestId addresses classOf = some w') (now : Snapshot) :
    Fresh now classOf w.fullName w'.answer ↔
      ∀ a, Reported w.allocations addresses a → now.Finds a → UpToDate last now a := by
  have hdescribed : List.Forall₂ (DescribedBy w.allocations) w'.answer
      (bufferTexts classOf w.fullName (w'.answer.map (·.addr))) := by
    rw [(answer_eq h).2.1]
    exact forall₂_describe _ _ _ _
  have hiff : Fresh now classOf w.fullName w'.answer ↔
      ∀ r ∈ w'.answer, now.Finds r.addr → UpToDate last now r.addr := by
    refine forall₂_iff hdescribed ?_
    rintro r name ⟨alloc, ha, htype, hparents⟩
    have hr : recorded w.allocations r.addr = some (alloc.tmpAllocated, alloc.parents) := by
      rw [recorded, ha]
      rfl
    refine imp_congr_right fun _ => ?_
    rw [htype, remarks_iff, hrec.mark _ _ _ hr, hparents, UpToDate]
    refine and_congr_right fun _ => forall_congr' fun b => imp_congr_right fun _ => ?_
    exact hrec.parents _ _ _ hr b
  rw [hiff]
  constructor
  · intro hall a ha
    obtain ⟨r, hr, rfl⟩ := List.mem_map.1 ((mem_answer_iff h).2 ha)
    exact hall r hr
  · intro hall r hr
    exact hall r.addr ((mem_answer_iff h).1 (List.mem_map.2 ⟨r, hr, rfl⟩))

/-- **An answer is fresh exactly when the request is made in a later frame than the last
collection, or that collection saw all there is now of the objects the request comes to.** -/
theorem answer_fresh_iff {l : List Action} {w w' : WorkerThread} {requestId frame : UInt64}
    {addresses : List UInt64} {mem : Memory} {classOf : ClassLookup}
    (hrun : Run.run WorkerThread.step initial l = some w)
    (hfind : w.findReferences requestId addresses frame mem classOf = some w') :
    Fresh (w.snapshot mem) classOf w.fullName w'.answer ↔ w.lastGcFrame < frame ∨
      ∀ a, Reported w.allocations addresses a → (w.snapshot mem).Finds a →
        UpToDate (lastSnapshot initial none l) (w.snapshot mem) a := by
  have hrec := records_initial.run noDangling_initial hrun
  have hrefresh := hrec.refreshParents frame mem
  by_cases hframe : w.lastGcFrame < frame
  · have hname : (w.refreshParents frame mem).fullName = w.fullName := by
      unfold WorkerThread.refreshParents
      split_ifs <;> rfl
    rw [if_pos hframe] at hrefresh
    rw [← hname, fresh_iff hrefresh hfind]
    simp only [hframe, true_or, iff_true]
    intro a _ hfinds
    exact ⟨⟨_, rfl, hfinds⟩, fun b hlinks => ⟨_, rfl, hlinks⟩⟩
  · have hsame := refreshParents_eq_self (UInt64.not_lt.1 hframe) mem
    rw [findReferences, hsame] at hfind
    simp only [hframe, false_or]
    exact fresh_iff hrec hfind _

/-- An object allocated in frame 0, and a root area at address 100. -/
def firstFrame : List Action :=
  [.addAllocation 0 ⟨none, .empty⟩ 16 8 [], .work, .registerRoot 100 8]

/-- The root area mentions the object at 16. -/
def rootMemory : Memory := fun p => some (if p = 100 then 16 else 0)

/-- A request in the next frame. -/
theorem answer_fresh_iff_nextFrame : ∃ w w',
    Run.run WorkerThread.step initial firstFrame = some w ∧
    w.findReferences 1 [16] 1 rootMemory (fun _ => some ⟨none, .empty⟩) = some w' ∧
    (Fresh (w.snapshot rootMemory) (fun _ => some ⟨none, .empty⟩) w.fullName w'.answer ↔
      w.lastGcFrame < 1 ∨
        ∀ a, Reported w.allocations [16] a → (w.snapshot rootMemory).Finds a →
          UpToDate (lastSnapshot initial none firstFrame) (w.snapshot rootMemory) a) :=
  ⟨_, _, rfl, rfl, answer_fresh_iff (l := firstFrame) rfl rfl⟩

/-- No request in frame 0 updates the parents: the object is labelled as deleted. -/
theorem answer_stale_in_frame_zero :
    ¬ ∀ (l : List Action) (w w' : WorkerThread) (requestId frame : UInt64)
      (addresses : List UInt64) (mem : Memory) (classOf : ClassLookup),
      Run.run WorkerThread.step initial l = some w →
      w.findReferences requestId addresses frame mem classOf = some w' →
      Fresh (w.snapshot mem) classOf w.fullName w'.answer := by
  intro h
  have hfresh := h firstFrame _ _ 1 0 [16] rootMemory (fun _ => some ⟨none, .empty⟩) rfl rfl
  have hrec : Records (lastSnapshot initial none firstFrame) _ :=
    records_initial.run noDangling_initial (l := firstFrame) rfl
  have hword : RootWord rootMemory [⟨100, 8⟩] 16 :=
    ⟨⟨100, 8⟩, List.mem_singleton_self _, 0, by decide, by decide⟩
  obtain ⟨⟨s, hs, -⟩, -⟩ := (fresh_iff hrec rfl _).1 hfresh 16
    ⟨by decide, Or.inl (List.mem_singleton_self _)⟩ (.root (by decide) hword (by decide))
  cases hs

end WorkerThread

end Owlcat
