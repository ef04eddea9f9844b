import OwlcatMonoProfiler.Library.AllocLog
import OwlcatMonoProfiler.Server.Runs

/-!
# The event stream of the worker thread

What the allocations and frees reported to the sink have to do with the map and the queue.

* `log`: the reported allocations and frees;
* `outstanding`: the entries of the map and the queued frees, together the allocations that were
  reported and not freed yet;
* `Accounted`: the log leaves open exactly these, and `m_allocated` and `m_freed` count the log;
* `Accounted.step`: every action of the running worker thread keeps that, so long as a full
  collection starts only when no allocation is pending.
-/

namespace Owlcat

open AllocLog (Event)

/-- The allocation or free a report is about. -/
def Report.event : Report → Option (Event UInt64 UInt32)
  | .alloc _ addr size _ _ => some (.alloc addr size)
  | .free _ addr size => some (.free addr size)
  | _ => none

/-- The object a free item is about. -/
def WorkItem.freed : WorkItem → Option (Sigma fun _ : UInt64 => UInt32)
  | .alloc .. => none
  | .free _ obj size => some ⟨obj, size⟩

namespace WorkerThread

/-- The reported allocations and frees. -/
def log (w : WorkerThread) : List (Event UInt64 UInt32) := w.eventsSink.filterMap Report.event

/-- Addresses and sizes of the objects in the map. -/
def tracked (m : Dict UInt64 AllocInfo) : List (Sigma fun _ : UInt64 => UInt32) :=
  (Dict.mapEntries (fun _ alloc => alloc.size) m).entries

/-- Addresses and sizes of the free items in the queue. -/
def queuedFrees (w : WorkerThread) : List (Sigma fun _ : UInt64 => UInt32) :=
  w.workItems.pending.filterMap WorkItem.freed

/-- The objects in the map and those whose free is still queued. -/
def outstanding (w : WorkerThread) : List (Sigma fun _ : UInt64 => UInt32) :=
  tracked w.allocations ++ w.queuedFrees

/-- **The accounts of a running worker thread.**  The queue holds free items before allocations. -/
structure Accounted (w : WorkerThread) : Prop where
  outstanding : AllocLog.Outstanding w.log w.outstanding
  allocated : w.allocated = UInt64.ofNat (AllocLog.allocTotal UInt32.toNat w.log)
  freed : w.freed = UInt64.ofNat (AllocLog.freeTotal UInt32.toNat w.log)
  freesFirst : w.workItems.pending.Pairwise fun x y => x.isAlloc → y.isAlloc

/-! ### The objects in the map -/

theorem dlookup_tracked (m : Dict UInt64 AllocInfo) (a : UInt64) :
    (tracked m).dlookup a = sizes m a :=
  Dict.lookup_mapEntries _ m a

theorem nodupKeys_tracked (m : Dict UInt64 AllocInfo) : (tracked m).NodupKeys :=
  (Dict.mapEntries _ m).nodupKeys

theorem mem_keys_tracked {m : Dict UInt64 AllocInfo} {a : UInt64} :
    a ∈ (tracked m).keys ↔ a ∈ m := by
  rw [← List.dlookup_isSome, dlookup_tracked, mem_iff_sizes]

theorem tracked_perm {m m' : Dict UInt64 AllocInfo} (h : sizes m = sizes m') :
    (tracked m).Perm (tracked m') :=
  List.lookup_ext (nodupKeys_tracked m) (nodupKeys_tracked m') fun a s => by
    rw [dlookup_tracked, dlookup_tracked, h]

theorem tracked_mark (mem : Memory) (roots : List RootInfo) (m : Dict UInt64 AllocInfo) :
    (tracked (mark mem roots m).1.1).Perm (tracked m) :=
  tracked_perm (sizes_mark mem roots m)

/-- A new object comes to the others. -/
theorem tracked_insert {m : Dict UInt64 AllocInfo} {a : UInt64} (h : a ∉ m) (alloc : AllocInfo) :
    tracked (m.insert a alloc) = ⟨a, alloc.size⟩ :: tracked m := by
  rw [tracked, Dict.entries_mapEntries, AList.entries_insert_of_notMem h]
  rfl

/-- The map without one of its objects. -/
theorem tracked_erase {m : Dict UInt64 AllocInfo} {a : UInt64} {alloc : AllocInfo}
    (h : m.lookup a = some alloc) :
    (tracked m).Perm (⟨a, alloc.size⟩ :: tracked (m.erase a)) := by
  have hnot : a ∉ m.erase a := by simp
  rw [← tracked_insert hnot alloc]
  refine tracked_perm (funext fun b => ?_)
  rw [sizes, sizes]
  by_cases hb : b = a
  · subst hb
    rw [h, AList.lookup_insert]
  · rw [AList.lookup_insert_ne hb, AList.lookup_erase_ne hb]

/-- What stays in the map and what a collection takes out of it. -/
theorem tracked_filter (m : Dict UInt64 AllocInfo) (p : UInt64 → AllocInfo → Bool) :
    (tracked m).Perm (tracked (Dict.filterEntries p m) ++
      ((m.entries.filter fun e => !p e.1 e.2).map fun e => ⟨e.1, e.2.size⟩)) := by
  rw [tracked, tracked, Dict.entries_mapEntries, Dict.entries_mapEntries, ← List.map_append]
  exact (List.filter_append_perm _ m.entries).symm.map _

/-! ### Single actions -/

theorem log_report (w : WorkerThread) (r : Report) :
    (w.report r).log = w.log ++ r.event.toList := by
  simp only [log, report, List.filterMap_append]
  cases r <;> rfl

theorem Accounted.initial : Accounted initial :=
  ⟨.nil, rfl, rfl, .nil⟩

/-- Accounts depend on the log, the outstanding objects, the counters and the queue only. -/
theorem Accounted.congr {w w' : WorkerThread} (h : Accounted w) (hlog : w'.log = w.log)
    (houtstanding : w.outstanding.Perm w'.outstanding) (hallocated : w'.allocated = w.allocated)
    (hfreed : w'.freed = w.freed)
    (hqueue : w'.workItems.pending.Pairwise fun x y => x.isAlloc → y.isAlloc) : Accounted w' :=
  ⟨hlog ▸ h.outstanding.perm houtstanding, by rw [hlog, hallocated, h.allocated],
    by rw [hlog, hfreed, h.freed], hqueue⟩

/-- An object that is freed leaves the outstanding ones. -/
theorem accounts_reportFree {w : WorkerThread} {m : List (Sigma fun _ : UInt64 => UInt32)}
    {a : UInt64} {size : UInt32} (h : AllocLog.Outstanding w.log (⟨a, size⟩ :: m))
    (hallocated : w.allocated = UInt64.ofNat (AllocLog.allocTotal UInt32.toNat w.log))
    (hfreed : w.freed = UInt64.ofNat (AllocLog.freeTotal UInt32.toNat w.log)) (frame : UInt64) :
    AllocLog.Outstanding (w.reportFree frame a size).log m ∧
      w.allocated =
        UInt64.ofNat (AllocLog.allocTotal UInt32.toNat (w.reportFree frame a size).log) ∧
      (w.reportFree frame a size).freed =
        UInt64.ofNat (AllocLog.freeTotal UInt32.toNat (w.reportFree frame a size).log) := by
  have hlog : (w.reportFree frame a size).log = w.log ++ [.free a size] := log_report w _
  rw [hlog, AllocLog.freeTotal_append, AllocLog.allocTotal_append, UInt64.ofNat_add,
    UInt64.ofNat_add, ← hfreed, ← hallocated]
  refine ⟨h.free, ?_, ?_⟩
  · simp [AllocLog.allocTotal]
  · simp [AllocLog.freeTotal, reportFree]

/-- The map after an allocation was entered, and the log in which a reallocation was closed. -/
theorem accounts_enterAllocation {w : WorkerThread} (h : Accounted w) (hfrees : w.queuedFrees = [])
    (frame addr : UInt64) (size : UInt32) :
    ∃ m : List (Sigma fun _ : UInt64 => UInt32), addr ∉ m.keys ∧
      (tracked (w.enterAllocation frame addr size).allocations).Perm (⟨addr, size⟩ :: m) ∧
      AllocLog.Outstanding (w.enterAllocation frame addr size).log m ∧
      (w.enterAllocation frame addr size).allocated =
        UInt64.ofNat (AllocLog.allocTotal UInt32.toNat (w.enterAllocation frame addr size).log) ∧
      (w.enterAllocation frame addr size).freed =
        UInt64.ofNat (AllocLog.freeTotal UInt32.toNat (w.enterAllocation frame addr size).log) ∧
      (w.enterAllocation frame addr size).workItems = w.workItems := by
  have hout := h.outstanding
  rw [outstanding, hfrees, List.append_nil] at hout
  unfold enterAllocation
  cases ha : w.allocations.lookup addr with
  | none =>
    have hnot : addr ∉ w.allocations := AList.lookup_eq_none.1 ha
    refine ⟨tracked w.allocations, fun hm => hnot (mem_keys_tracked.1 hm), ?_, hout, h.allocated,
      h.freed, rfl⟩
    exact List.Perm.of_eq (tracked_insert hnot _)
  | some alloc =>
    -- the address is still in the map: the old object is reported as freed, with its size
    obtain ⟨h1, h2, h3⟩ := accounts_reportFree (hout.perm (tracked_erase ha)) h.allocated h.freed
      frame
    have hmod : (Dict.modify addr (fun a => { a with size := size }) w.allocations).lookup addr =
        some { alloc with size := size } := by
      rw [Dict.lookup_modify_self, ha]
      rfl
    refine ⟨tracked (w.allocations.erase addr), ?_, ?_, h1, h2, h3, rfl⟩
    · rw [mem_keys_tracked]
      simp
    · refine (tracked_erase hmod).trans (List.Perm.cons _ (tracked_perm (funext fun b => ?_)))
      rw [sizes, sizes]
      by_cases hb : b = addr
      · subst hb
        rw [AList.lookup_erase, AList.lookup_erase]
      · rw [AList.lookup_erase_ne hb, AList.lookup_erase_ne hb, Dict.lookup_modify_ne hb]

/-- An item at the front of the queue is processed. -/
theorem Accounted.processItem {w : WorkerThread} {q : Fifo WorkItem} {item : WorkItem}
    (h : Accounted w) (hq : w.workItems.pending = item :: q.pending) :
    Accounted ({ w with workItems := q, workItemsEmpty := false }.processItem item) := by
  obtain ⟨hfirst, hrest⟩ := List.pairwise_cons.1 (hq ▸ h.freesFirst)
  cases item with
  | free frame obj size =>
    have hout : w.outstanding.Perm
        (⟨obj, size⟩ :: (tracked w.allocations ++ q.pending.filterMap WorkItem.freed)) := by
      rw [WorkerThread.outstanding, queuedFrees, hq]
      exact List.perm_middle
    obtain ⟨h1, h2, h3⟩ :=
      accounts_reportFree (w := { w with workItems := q, workItemsEmpty := false })
        (h.outstanding.perm hout) h.allocated h.freed frame
    exact ⟨h1, h2, h3, hrest⟩
  | alloc frame klass obj size backtrace =>
    -- frees come first, so none is left behind an allocation
    have hfrees : q.pending.filterMap WorkItem.freed = [] := by
      rw [List.filterMap_eq_nil_iff]
      intro item hitem
      cases item with
      | alloc => rfl
      | free => cases hfirst _ hitem rfl
    have hw : Accounted { w with workItems := q, workItemsEmpty := false } := by
      refine h.congr rfl ?_ rfl rfl hrest
      rw [WorkerThread.outstanding, WorkerThread.outstanding, queuedFrees, hq]
      exact List.Perm.refl _
    simp only [WorkerThread.processItem]
    cases callstack backtrace with
    | none => exact hw
    | some str =>
      obtain ⟨m, hm, htracked, hout, hallocated, hfreed, hitems⟩ :=
        accounts_enterAllocation hw hfrees frame obj size
      generalize enterAllocation _ frame obj size = v at htracked hout hallocated hfreed hitems ⊢
      have hlog : ({ v.report (.alloc frame obj size (getFullClassName klass) str) with
          allocated := v.allocated + size.toUInt64 } : WorkerThread).log =
          v.log ++ [.alloc obj size] := log_report v _
      have hpending : v.workItems.pending = q.pending := by rw [hitems]
      refine ⟨?_, ?_, ?_, ?_⟩
      · rw [hlog]
        refine (hout.alloc hm size).perm (htracked.symm.trans (List.Perm.of_eq ?_))
        change _ = tracked v.allocations ++ v.workItems.pending.filterMap WorkItem.freed
        rw [hpending, hfrees, List.append_nil]
      · rw [hlog, AllocLog.allocTotal_append, UInt64.ofNat_add, ← hallocated]
        simp [AllocLog.allocTotal]
      · rw [hlog, AllocLog.freeTotal_append, UInt64.ofNat_add, ← hfreed]
        simp [AllocLog.freeTotal, report]
      · change v.workItems.pending.Pairwise _
        rw [hpending]
        exact hrest

theorem pending_sweep (w : WorkerThread) (frame : UInt64) :
    (w.sweep frame).workItems.pending = w.workItems.pending ++
      (w.allocations.entries.filter fun e => !e.2.tmpAllocated).map fun e =>
        .free frame e.1 e.2.size :=
  Fifo.pending_enqueueAll _ _

/-- What is forgotten moves from the map to the queue. -/
theorem outstanding_sweep (w : WorkerThread) (frame : UInt64) :
    w.outstanding.Perm (w.sweep frame).outstanding := by
  have hfrees : (w.sweep frame).queuedFrees = w.queuedFrees ++
      (w.allocations.entries.filter fun e => !e.2.tmpAllocated).map fun e => ⟨e.1, e.2.size⟩ := by
    rw [queuedFrees, pending_sweep, List.filterMap_append, List.filterMap_map]
    exact congrArg _ (congrFun List.filterMap_eq_map _)
  rw [outstanding, outstanding, hfrees]
  refine ((tracked_filter _ fun _ alloc => alloc.tmpAllocated).append_right _).trans ?_
  rw [List.append_assoc]
  exact List.perm_append_comm.append_left _

theorem Accounted.doGcSync {w : WorkerThread} (h : Accounted w) (frame : UInt64)
    {onlyUpdateParents : Bool} (hdrained : onlyUpdateParents = false → w.NoAllocPending)
    (mem : Memory) : Accounted (w.doGcSync frame onlyUpdateParents mem) := by
  have hmark : Accounted { w with allocations := (mark mem w.roots w.allocations).1.1 } :=
    h.congr rfl ((tracked_mark mem w.roots w.allocations).symm.append_right _) rfl rfl h.freesFirst
  cases onlyUpdateParents with
  | true => exact hmark.congr rfl (List.Perm.refl _) rfl rfl h.freesFirst
  | false =>
    refine hmark.congr rfl (outstanding_sweep _ frame) rfl rfl ?_
    change (sweep _ frame).workItems.pending.Pairwise _
    rw [pending_sweep]
    -- the frees go behind a queue without allocations
    refine List.pairwise_append.2 ⟨h.freesFirst, ?_, fun x hx y _ hxa => ?_⟩
    · refine List.pairwise_map.2 (List.pairwise_of_forall fun x y hx => ?_)
      cases hx
    · rw [hdrained rfl x hx] at hxa
      cases hxa

/-- **Every action of the running worker thread keeps the accounts.** -/
theorem Accounted.step {w w' : WorkerThread} {a : Action} (h : Accounted w)
    (hparents : NoDangling w.allocations) (hdrained : w.CollectsDrained a)
    (hstep : w.step a = some w') (hrunning : w'.exited = false) : Accounted w' := by
  cases a with
  | addAllocation frame klass obj size backtrace =>
    cases hstep
    refine h.congr rfl ?_ rfl rfl ?_
    · rw [WorkerThread.outstanding, WorkerThread.outstanding, queuedFrees, queuedFrees,
        addAllocationAsync, Fifo.pending_enqueue, List.filterMap_append]
      exact List.Perm.of_eq (by simp [WorkItem.freed])
    · rw [addAllocationAsync, Fifo.pending_enqueue]
      refine List.pairwise_append.2 ⟨h.freesFirst, List.pairwise_singleton _ _, ?_⟩
      simp [WorkItem.isAlloc]
  | work =>
    simp only [WorkerThread.step] at hstep
    split_ifs at hstep
    cases hstep
    unfold doWork at hrunning ⊢
    split_ifs at hrunning ⊢
    · cases hrunning
    · cases hq : w.workItems.tryDequeue with
      | none => exact h.congr rfl (List.Perm.refl _) rfl rfl h.freesFirst
      | some p => exact h.processItem (Fifo.tryDequeue_eq_some hq).1
  | collect frame only mem =>
    cases hstep
    exact h.doGcSync frame (fun honly => by subst honly; exact hdrained) mem
  | registerRoot => cases hstep; exact h.congr rfl (List.Perm.refl _) rfl rfl h.freesFirst
  | unregisterRoot => cases hstep; exact h.congr rfl (List.Perm.refl _) rfl rfl h.freesFirst
  | findReferences id addrs frame mem classOf =>
    have hrefresh : Accounted (w.refreshParents frame mem) := by
      unfold refreshParents
      split_ifs
      · exact h.doGcSync frame (fun honly => by cases honly) mem
      · exact h
    obtain ⟨-, buffer, hfind⟩ :=
      findReferencesInternal_spec (hparents.refreshParents frame mem) id addrs classOf
    rw [WorkerThread.step, findReferences, hfind] at hstep
    cases hstep
    -- a search reports references and sets visited marks, and neither counts
    refine hrefresh.congr ?_ (List.Perm.append_right _ (tracked_perm (funext fun a => ?_))) rfl rfl
      hrefresh.freesFirst
    · rw [log_report]
      simp [Report.event, log]
    · simp only [sizes, report, lookup_visitAll, Option.map_map]
      rfl
  | pause id =>
    cases hstep
    refine h.congr ?_ (List.Perm.refl _) rfl rfl h.freesFirst
    rw [pauseApp, log_report]
    simp [Report.event, log]
  | resume id =>
    cases hstep
    refine h.congr ?_ (List.Perm.refl _) rfl rfl h.freesFirst
    rw [resumeApp, log_report]
    simp [Report.event, log]
  | stop => cases hstep; exact h.congr rfl (List.Perm.refl _) rfl rfl h.freesFirst
  | rehash m =>
    simp only [WorkerThread.step] at hstep
    split_ifs at hstep with hperm
    cases hstep
    refine h.congr rfl (List.Perm.append_right _ (tracked_perm (funext fun a => ?_))) rfl rfl
      h.freesFirst
    rw [sizes, sizes, AList.perm_lookup hperm]

/-! ### Whole runs -/

/-- The accounts hold until `do_work` returns, and the log stays well formed for ever. -/
structure Consistent (w : WorkerThread) : Prop where
  noDangling : NoDangling w.allocations
  wellFormed : AllocLog.WellFormed w.log
  accounted : w.exited = false → Accounted w

theorem Consistent.initial : Consistent initial :=
  ⟨noDangling_initial, AllocLog.wellFormed_nil, fun _ => Accounted.initial⟩

/-- Only the loop of `do_work` reports allocations and frees, and only `do_work` returns. -/
theorem log_step {w w' : WorkerThread} {a : Action} (hparents : NoDangling w.allocations)
    (ha : a ≠ .work) (hstep : w.step a = some w') : w'.log = w.log ∧ w'.exited = w.exited := by
  have hevent : ∀ (v : WorkerThread) (r : Report), r.event = none → (v.report r).log = v.log := by
    intro v r hr
    rw [log_report, hr, Option.toList_none, List.append_nil]
  cases a with
  | work => exact absurd rfl ha
  | collect frame only mem => cases hstep; cases only <;> exact ⟨rfl, rfl⟩
  | findReferences id addrs frame mem classOf =>
    obtain ⟨-, buffer, hfind⟩ :=
      findReferencesInternal_spec (hparents.refreshParents frame mem) id addrs classOf
    rw [WorkerThread.step, findReferences, hfind] at hstep
    cases hstep
    rw [hevent _ _ rfl]
    unfold refreshParents
    split_ifs <;> exact ⟨rfl, rfl⟩
  | pause id => cases hstep; exact ⟨hevent _ _ rfl, rfl⟩
  | resume id => cases hstep; exact ⟨hevent _ _ rfl, rfl⟩
  | rehash m =>
    simp only [WorkerThread.step] at hstep
    split_ifs at hstep
    cases hstep
    exact ⟨rfl, rfl⟩
  | _ => cases hstep; exact ⟨rfl, rfl⟩

/-- When `do_work` returns it reports nothing. -/
theorem log_doWork_of_stop {w : WorkerThread} (h : w.stop) : w.doWork.log = w.log := by
  rw [doWork, if_pos h]
  rfl

theorem stop_of_exited {w w' : WorkerThread} (hstep : w.step .work = some w')
    (hexited : w'.exited) : w.stop := by
  simp only [WorkerThread.step] at hstep
  split_ifs at hstep with hw
  cases hstep
  by_contra hstop
  rw [doWork, if_neg hstop] at hexited
  cases hq : w.workItems.tryDequeue with
  | none => rw [hq] at hexited; exact hw hexited
  | some p =>
    rw [hq, (processItem_frame _ _).2.2] at hexited
    exact hw hexited

theorem Consistent.step {w w' : WorkerThread} {a : Action} (h : Consistent w)
    (hdrained : w.CollectsDrained a) (hstep : w.step a = some w') : Consistent w' := by
  have hparents := h.noDangling.step hstep
  cases hexited : w'.exited with
  | false =>
    have hrunning : w.exited = false := by
      by_contra hw
      cases a with
      | work => simp [WorkerThread.step, hw] at hstep
      | _ => rw [(log_step h.noDangling (by simp) hstep).2] at hexited; exact hw hexited
    have hacc := (h.accounted hrunning).step h.noDangling hdrained hstep hexited
    exact ⟨hparents, hacc.outstanding.wellFormed, fun _ => hacc⟩
  | true =>
    -- `do_work` has returned, and returning reports nothing
    have hlog : w'.log = w.log := by
      cases a with
      | work =>
        have hstop := stop_of_exited hstep hexited
        simp only [WorkerThread.step] at hstep
        split_ifs at hstep
        cases hstep
        exact log_doWork_of_stop hstop
      | _ => exact (log_step h.noDangling (by simp) hstep).1
    refine ⟨hparents, hlog ▸ h.wellFormed, fun hrunning => ?_⟩
    rw [hexited] at hrunning
    cases hrunning

/-- **Every run in which full collections start drained is consistent.** -/
theorem consistent_of_run {l : List Action} {w : WorkerThread}
    (hrun : Run.run WorkerThread.step WorkerThread.initial l = some w)
    (hdrained : Run.Along WorkerThread.step CollectsDrained WorkerThread.initial l) :
    Consistent w :=
  Run.run_invariant (fun _ _ _ h hP hstep => h.step hP hstep) Consistent.initial hdrained hrun

/-- The sizes of the objects in the map. -/
def trackedSize (w : WorkerThread) : ℕ := Dict.total (fun alloc => alloc.size.toNat) w.allocations

/-- The sizes of the free items in the queue. -/
def queuedSize (w : WorkerThread) : ℕ := (w.queuedFrees.map fun e => e.2.toNat).sum

/-- **The event stream of a run.**  The events of each address alternate, each free with the size of
the allocation it closes, and until `do_work` returns no byte is unaccounted for. -/
theorem events_alternate_and_bytes_conserved {l : List Action} {w : WorkerThread}
    (hrun : Run.run WorkerThread.step WorkerThread.initial l = some w)
    (hdrained : Run.Along WorkerThread.step CollectsDrained WorkerThread.initial l) :
    (∀ a, AllocLog.Alternating (AllocLog.eventsOf w.log a)) ∧
      (w.exited = false →
        w.allocated = w.freed + UInt64.ofNat (w.trackedSize + w.queuedSize)) := by
  have h := consistent_of_run hrun hdrained
  refine ⟨h.wellFormed, fun hrunning => ?_⟩
  have hacc := h.accounted hrunning
  have hsum : (w.outstanding.map fun e => e.2.toNat).sum = w.trackedSize + w.queuedSize := by
    rw [outstanding, List.map_append, List.sum_append, tracked, Dict.entries_mapEntries,
      List.map_map]
    simp only [trackedSize, Dict.total, Dict.values, List.map_map]
    rfl
  rw [hacc.allocated, hacc.freed, hacc.outstanding.total_eq, hsum, UInt64.ofNat_add]

/-- An object is allocated, collected, and its address used again before its free is reported. -/
def reuseRun : List Action :=
  [.addAllocation 1 ⟨none, .empty⟩ 16 8 [], .work, .collect 2 false fun _ => none,
    .addAllocation 2 ⟨none, .empty⟩ 16 24 [], .work, .work]

theorem events_alternate_reuseRun :
    ∃ w, Run.run WorkerThread.step WorkerThread.initial reuseRun = some w ∧
      w.log = [.alloc 16 8, .free 16 8, .alloc 16 24] ∧
      (∀ a, AllocLog.Alternating (AllocLog.eventsOf w.log a)) ∧
      (w.exited = false →
        w.allocated = w.freed + UInt64.ofNat (w.trackedSize + w.queuedSize)) :=
  ⟨_, rfl, by decide, events_alternate_and_bytes_conserved (l := reuseRun) rfl (by decide)⟩

/-- The clean-up behind the loop forgets the objects in the map without freeing them. -/
theorem bytes_not_conserved_after_exit :
    ¬ ∀ (l : List Action) (w : WorkerThread),
      Run.run WorkerThread.step WorkerThread.initial l = some w →
      Run.Along WorkerThread.step CollectsDrained WorkerThread.initial l →
      (∀ a, AllocLog.Alternating (AllocLog.eventsOf w.log a)) ∧
        w.allocated = w.freed + UInt64.ofNat (w.trackedSize + w.queuedSize) := by
  intro h
  have h' := (h [.addAllocation 1 ⟨none, .empty⟩ 16 8 [], .work, .stop, .work] _ rfl (by decide)).2
  revert h'
  decide

end WorkerThread

end Owlcat
