import OwlcatMonoProfiler.Server.Accounting

/-!
# Requests leave the event stream alone

Reference requests, updates of the parents, pauses and resumptions are made from the outside while
the worker thread records.  They write to flags and parents of the entries, to the static buffer and
to the stop lock, and none of this decides which events are reported.

* `Action.isRecording`: the actions that record, all but the requests;
* `bare`: a worker without what the requests may change;
* `bare_step`, `bare_request`: `bare` is enough to know what a recording action does, and a request
  does not change it;
* `recording_of_run`: a run without its requests records the same.
-/

namespace Owlcat

namespace WorkerThread

/-- The actions that record; the others are requests from outside. -/
def Action.isRecording : Action → Bool
  | .findReferences .. => false
  | .collect _ onlyUpdateParents _ => !onlyUpdateParents
  | .pause _ => false
  | .resume _ => false
  | _ => true

/-- The same action, except that the map an iteration order is taken from may hold other marks. -/
def Action.Same : Action → Action → Prop
  | .rehash m, .rehash m' => m.keys = m'.keys
  | a, b => a = b

/-- The calls of the events sink that report an allocation or a free. -/
def eventCalls (reports : List Report) : List Report := reports.filter fun r => r.event.isSome

/-- A worker thread without marks, parents, buffer, stop lock, last collection and answers. -/
def bare (w : WorkerThread) : WorkerThread :=
  { w with
    eventsSink := eventCalls w.eventsSink
    lastGcFrame := 0
    stopLock := false
    allocations := clearMarks w.allocations
    fullName := .empty }

/-! ### Marks -/

theorem clearMarks_clearMarks (m : Dict UInt64 AllocInfo) :
    clearMarks (clearMarks m) = clearMarks m :=
  Dict.mapEntries_mapEntries ..

theorem clearMarks_mapEntries {f : UInt64 → AllocInfo → AllocInfo}
    (h : ∀ k a, (f k a).size = a.size) (m : Dict UInt64 AllocInfo) :
    clearMarks (Dict.mapEntries f m) = clearMarks m := by
  rw [clearMarks, Dict.mapEntries_mapEntries]
  refine Dict.mapEntries_congr fun k a _ => ?_
  rw [h]

theorem clearMarks_modify {g : AllocInfo → AllocInfo} (h : ∀ a, (g a).size = a.size) (k : UInt64)
    (m : Dict UInt64 AllocInfo) : clearMarks (Dict.modify k g m) = clearMarks m := by
  refine clearMarks_mapEntries (fun k' a => ?_) m
  split_ifs
  · exact h a
  · rfl

theorem clearMarks_markRoot (p : Marking) (ref : UInt64) :
    clearMarks (markRoot p ref).1 = clearMarks p.1 := by
  unfold markRoot
  split_ifs with h0
  · cases p.1.lookup ref with
    | none => rfl
    | some alloc =>
      dsimp only
      split_ifs
      · rfl
      · apply clearMarks_modify
        intro a
        rfl
  · rfl

theorem clearMarks_scanWord (addr : UInt64) (p : Marking) (candidate : UInt64) :
    clearMarks (scanWord addr p candidate).1 = clearMarks p.1 := by
  unfold scanWord
  cases p.1.lookup candidate with
  | none => rfl
  | some alloc =>
    have hparent := clearMarks_modify
      (g := fun a => { a with parents := a.parents ++ [addr] }) (fun _ => rfl) candidate p.1
    dsimp only
    split_ifs
    · exact hparent
    · refine Eq.trans ?_ hparent
      apply clearMarks_modify
      intro a
      rfl

theorem clearMarks_processStack (mem : Memory) (n : ℕ) (p : Marking) :
    clearMarks (processStack mem n p).1.1 = clearMarks p.1 := by
  induction n generalizing p with
  | zero => rfl
  | succ n ih =>
    obtain ⟨m, stack⟩ := p
    cases stack with
    | nil => rfl
    | cons addr stack =>
      have hscan : ∀ (words : List UInt64) (p : Marking),
          clearMarks (words.foldl (scanWord addr) p).1 = clearMarks p.1 := by
        intro words
        induction words with
        | nil => intro p; rfl
        | cons c words ih' => intro p; rw [List.foldl_cons, ih', clearMarks_scanWord]
      exact (ih _).trans (hscan _ (m, stack))

/-- A collection starts with clearing the marks, so they do not matter for it. -/
theorem mark_clearMarks (mem : Memory) (roots : List RootInfo) (m : Dict UInt64 AllocInfo) :
    mark mem roots (clearMarks m) = mark mem roots m := by
  have hkeys : (clearMarks m).keys = m.keys := Dict.keys_mapEntries _ m
  rw [mark, mark, clearMarks_clearMarks, hkeys]

theorem clearMarks_mark (mem : Memory) (roots : List RootInfo) (m : Dict UInt64 AllocInfo) :
    clearMarks (mark mem roots m).1.1 = clearMarks m := by
  have hroots : ∀ (words : List UInt64) (p : Marking),
      clearMarks (words.foldl markRoot p).1 = clearMarks p.1 := by
    intro words
    induction words with
    | nil => intro p; rfl
    | cons ref words ih => intro p; rw [List.foldl_cons, ih, clearMarks_markRoot]
  rw [mark, clearMarks_processStack, hroots, clearMarks_clearMarks]

theorem clearMarks_visitAll (l : List UInt64) (m : Dict UInt64 AllocInfo) :
    clearMarks (visitAll l m) = clearMarks m := by
  apply clearMarks_mapEntries
  intro k a
  rfl

/-! ### One action -/

theorem eventCalls_append (reports : List Report) (r : Report) :
    eventCalls (eventCalls reports ++ [r]) = eventCalls (reports ++ [r]) := by
  rw [eventCalls, eventCalls, eventCalls, List.filter_append, List.filter_filter,
    List.filter_append]
  simp only [Bool.and_self]

/-- What makes two workers alike. -/
theorem bare_eq_iff {w w' : WorkerThread} : w.bare = w'.bare ↔
    w.allocated = w'.allocated ∧ w.freed = w'.freed ∧ w.workItems = w'.workItems ∧
      w.workItemsEmpty = w'.workItemsEmpty ∧
      eventCalls w.eventsSink = eventCalls w'.eventsSink ∧ w.stop = w'.stop ∧
      clearMarks w.allocations = clearMarks w'.allocations ∧ w.roots = w'.roots ∧
      w.exited = w'.exited := by
  simp [bare]

theorem bare_bare (w : WorkerThread) : w.bare.bare = w.bare := by
  rw [bare_eq_iff]
  simp [bare, clearMarks_clearMarks, eventCalls, List.filter_filter]

theorem bare_reportFree (w : WorkerThread) (frame addr : UInt64) (size : UInt32) :
    (w.bare.reportFree frame addr size).bare = (w.reportFree frame addr size).bare := by
  simp [bare, reportFree, report, eventCalls_append, clearMarks_clearMarks]

theorem bare_enterAllocation (w : WorkerThread) (frame addr : UInt64) (size : UInt32) :
    (w.bare.enterAllocation frame addr size).bare = (w.enterAllocation frame addr size).bare := by
  have hlookup : w.bare.allocations.lookup addr =
      (w.allocations.lookup addr).map fun a => { size := a.size } :=
    lookup_clearMarks w.allocations addr
  have hsize : ∀ m, clearMarks (Dict.modify addr (fun a => { a with size := size }) m) =
      Dict.modify addr (fun a => { a with size := size }) (clearMarks m) := by
    intro m
    rw [clearMarks, Dict.modify, Dict.modify, clearMarks, Dict.mapEntries_mapEntries,
      Dict.mapEntries_mapEntries]
    refine Dict.mapEntries_congr fun k a _ => ?_
    split_ifs <;> rfl
  unfold enterAllocation
  rw [hlookup]
  cases w.allocations.lookup addr with
  | none =>
    have hinsert : ∀ m, clearMarks (m.insert addr ({ size := size } : AllocInfo)) =
        (clearMarks m).insert addr { size := size } := fun m => Dict.mapEntries_insert ..
    rw [bare_eq_iff]
    simp [bare, hinsert, clearMarks_clearMarks, eventCalls, List.filter_filter]
  | some alloc =>
    rw [bare_eq_iff]
    simp [bare, reportFree, report, eventCalls_append, hsize, clearMarks_clearMarks]

theorem bare_congr {f : WorkerThread → WorkerThread} (hf : ∀ w, (f w.bare).bare = (f w).bare)
    {w w' : WorkerThread} (h : w.bare = w'.bare) : (f w).bare = (f w').bare := by
  rw [← hf, h, hf]

theorem bare_report_alloc (w : WorkerThread) (frame addr : UInt64) (size : UInt32)
    (name str : CString) :
    ({ w.report (.alloc frame addr size name str) with
      allocated := w.allocated + size.toUInt64 } : WorkerThread).bare =
    ({ w.bare.report (.alloc frame addr size name str) with
      allocated := w.bare.allocated + size.toUInt64 } : WorkerThread).bare := by
  rw [bare_eq_iff]
  simp [bare, report, eventCalls_append, clearMarks_clearMarks]

theorem bare_processItem (w : WorkerThread) (item : WorkItem) :
    (w.bare.processItem item).bare = (w.processItem item).bare := by
  cases item with
  | free frame obj size => exact bare_reportFree w frame obj size
  | alloc frame klass obj size backtrace =>
    simp only [processItem]
    cases callstack backtrace with
    | none => exact bare_bare w
    | some str =>
      dsimp only
      rw [bare_report_alloc, bare_enterAllocation, ← bare_report_alloc]

theorem bare_doWork (w : WorkerThread) : w.bare.doWork.bare = w.doWork.bare := by
  have hstop : w.bare.stop = w.stop := rfl
  have hitems : w.bare.workItems = w.workItems := rfl
  unfold doWork
  rw [hstop, hitems]
  split_ifs
  · rw [bare_eq_iff]
    simp [bare, cleanUp, eventCalls, List.filter_filter]
  · cases w.workItems.tryDequeue with
    | none =>
      rw [bare_eq_iff]
      simp [bare, clearMarks_clearMarks, eventCalls, List.filter_filter]
    | some p =>
      exact bare_processItem { w with workItems := p.2, workItemsEmpty := false } p.1

/-- A full collection. -/
theorem bare_doGcSync (w : WorkerThread) (frame : UInt64) (mem : Memory) :
    (w.bare.doGcSync frame false mem).bare = (w.doGcSync frame false mem).bare := by
  have hmark : mark mem w.bare.roots w.bare.allocations = mark mem w.roots w.allocations :=
    mark_clearMarks mem w.roots w.allocations
  rw [doGcSync, doGcSync, doGcInternal, doGcInternal, hmark, bare_eq_iff]
  simp [bare, sweep, eventCalls, List.filter_filter]

/-- An update of the parents. -/
theorem bare_doGcSync_parents (w : WorkerThread) (frame : UInt64) (mem : Memory) :
    (w.doGcSync frame true mem).bare = w.bare := by
  rw [doGcSync, doGcInternal, bare_eq_iff]
  simp [clearMarks_mark]

/-- **A request is not seen.** -/
theorem bare_request {w t : WorkerThread} {a : Action} (hw : NoDangling w.allocations)
    (ha : a.isRecording = false) (hstep : w.step a = some t) : t.bare = w.bare := by
  have hreport : ∀ (w : WorkerThread) (r : Report), r.event.isSome = false →
      (w.report r).bare = w.bare := by
    intro w r hr
    rw [bare_eq_iff]
    simp [report, eventCalls, hr]
  cases a with
  | collect frame only mem =>
    cases hstep
    cases only with
    | true => exact bare_doGcSync_parents w frame mem
    | false => cases ha
  | findReferences id addrs frame mem classOf =>
    have hrefresh : (w.refreshParents frame mem).bare = w.bare := by
      unfold refreshParents
      split_ifs
      · exact bare_doGcSync_parents w frame mem
      · rfl
    obtain ⟨-, buffer, hfind⟩ :=
      findReferencesInternal_spec (hw.refreshParents frame mem) id addrs classOf
    rw [WorkerThread.step, findReferences, hfind, Option.some.injEq] at hstep
    rw [← hstep, hreport _ _ rfl, ← hrefresh, bare_eq_iff]
    simp [clearMarks_visitAll]
  | pause id => cases hstep; exact hreport _ _ rfl
  | resume id => cases hstep; exact hreport _ _ rfl
  | addAllocation | work | registerRoot | unregisterRoot | stop | rehash => cases ha

/-- Another iteration order of the map, with the marks of another worker. -/
theorem bare_rehash {w w' t : WorkerThread} {m : Dict UInt64 AllocInfo} (h : w.bare = w'.bare)
    (hstep : w.step (.rehash m) = some t) :
    ∃ m' t', m.keys = m'.keys ∧ w'.step (.rehash m') = some t' ∧ t.bare = t'.bare := by
  simp only [WorkerThread.step] at hstep
  split_ifs at hstep with hperm
  cases hstep
  rw [bare_eq_iff] at h
  obtain ⟨h1, h2, h3, h4, h5, h6, hmarks, h8, h9⟩ := h
  have hsize : ∀ k, (m.lookup k).map (fun a : AllocInfo => ({ size := a.size } : AllocInfo)) =
      (w'.allocations.lookup k).map fun a => { size := a.size } := by
    intro k
    rw [AList.perm_lookup hperm, ← lookup_clearMarks, hmarks, lookup_clearMarks]
  let m' := Dict.mapEntries (fun k a => (w'.allocations.lookup k).getD a) m
  have hlookup : ∀ k, m'.lookup k = w'.allocations.lookup k := by
    intro k
    rw [Dict.lookup_mapEntries]
    have hk := hsize k
    cases hm : m.lookup k with
    | none =>
      rw [hm, Option.map_none, eq_comm, Option.map_eq_none_iff] at hk
      rw [hk, Option.map_none]
    | some a =>
      rw [hm, Option.map_some, eq_comm, Option.map_eq_some_iff] at hk
      obtain ⟨a', ha', -⟩ := hk
      rw [ha', Option.map_some, Option.getD_some]
  refine ⟨m', { w' with allocations := m' }, (Dict.keys_mapEntries _ m).symm, ?_, ?_⟩
  · exact if_pos (Dict.perm_of_lookup hlookup)
  · rw [bare_eq_iff]
    refine ⟨h1, h2, h3, h4, h5, h6, ?_, h8, h9⟩
    show clearMarks m = clearMarks m'
    rw [clearMarks, clearMarks, Dict.mapEntries_mapEntries]
    refine Dict.mapEntries_congr fun k a ha => ?_
    have hk := hsize k
    rw [ha, Option.map_some, eq_comm, Option.map_eq_some_iff] at hk
    obtain ⟨a', ha', hsame⟩ := hk
    rw [ha', Option.getD_some]
    exact hsame.symm

/-- **A recording action does the same in a worker that is alike.** -/
theorem bare_step {w w' t : WorkerThread} {a : Action} (h : w.bare = w'.bare)
    (ha : a.isRecording = true) (hstep : w.step a = some t) :
    ∃ b t', Action.Same a b ∧ w'.step b = some t' ∧ t.bare = t'.bare := by
  have hexited : w.exited = w'.exited := (bare_eq_iff.1 h).2.2.2.2.2.2.2.2
  cases a with
  | addAllocation frame klass obj size backtrace =>
    cases hstep
    refine ⟨.addAllocation frame klass obj size backtrace, _, rfl, rfl, ?_⟩
    exact bare_congr (f := fun w => w.addAllocationAsync frame klass obj size backtrace)
      (fun w => bare_bare (w.addAllocationAsync frame klass obj size backtrace)) h
  | work =>
    simp only [WorkerThread.step] at hstep
    split_ifs at hstep with hx
    cases hstep
    refine ⟨.work, w'.doWork, rfl, ?_, bare_congr bare_doWork h⟩
    exact if_neg (by rwa [← hexited])
  | collect frame only mem =>
    cases hstep
    cases only with
    | true => cases ha
    | false =>
      refine ⟨.collect frame false mem, _, rfl, rfl, ?_⟩
      exact bare_congr (f := fun w => w.doGcSync frame false mem)
        (fun w => bare_doGcSync w frame mem) h
  | registerRoot start size =>
    cases hstep
    refine ⟨.registerRoot start size, _, rfl, rfl, ?_⟩
    exact bare_congr (f := fun w => w.registerRoot start size)
      (fun w => bare_bare (w.registerRoot start size)) h
  | unregisterRoot start =>
    cases hstep
    refine ⟨.unregisterRoot start, _, rfl, rfl, ?_⟩
    exact bare_congr (f := fun w => w.unregisterRoot start)
      (fun w => bare_bare (w.unregisterRoot start)) h
  | stop =>
    cases hstep
    refine ⟨.stop, _, rfl, rfl, ?_⟩
    exact bare_congr (f := requestStop) (fun w => bare_bare w.requestStop) h
  | rehash m =>
    obtain ⟨m', t', hkeys, hstep', ht⟩ := bare_rehash h hstep
    exact ⟨.rehash m', t', hkeys, hstep', ht⟩
  | findReferences | pause | resume => cases ha

/-! ### Whole runs -/

/-- A worker and one that has got no requests. -/
def Alike (w w' : WorkerThread) : Prop := NoDangling w.allocations ∧ w.bare = w'.bare

/-- **Requests leave the event stream alone.**  A run without its reference requests, updates of the
parents, pauses and resumptions is possible, too; it reports the same events in the same order, and
leaves the same counters, queue and objects behind. -/
theorem recording_of_run {l : List Action} {w : WorkerThread}
    (hrun : Run.run WorkerThread.step initial l = some w) :
    ∃ l' w', List.Forall₂ Action.Same (l.filter Action.isRecording) l' ∧
      Run.run WorkerThread.step initial l' = some w' ∧
      eventCalls w'.eventsSink = eventCalls w.eventsSink ∧
      w'.allocated = w.allocated ∧ w'.freed = w.freed ∧ w'.workItems = w.workItems ∧
      w'.roots = w.roots ∧ w'.allocations.keys = w.allocations.keys ∧
      sizes w'.allocations = sizes w.allocations := by
  have hrecording : ∀ w w' a t, Alike w w' → a.isRecording = true →
      WorkerThread.step w a = some t →
      ∃ b t', Action.Same a b ∧ WorkerThread.step w' b = some t' ∧ Alike t t' := by
    rintro w w' a t ⟨hw, hbare⟩ ha hstep
    obtain ⟨b, t', hab, hstep', ht⟩ := bare_step hbare ha hstep
    exact ⟨b, t', hab, hstep', hw.step hstep, ht⟩
  have hrequest : ∀ w w' a t, Alike w w' → a.isRecording = false →
      WorkerThread.step w a = some t → Alike t w' := by
    rintro w w' a t ⟨hw, hbare⟩ ha hstep
    exact ⟨hw.step hstep, (bare_request hw ha hstep).trans hbare⟩
  obtain ⟨l', w', hl, hrun', -, hbare⟩ :=
    Run.run_filter hrecording hrequest ⟨noDangling_initial, rfl⟩ hrun
  obtain ⟨h1, h2, h3, -, h5, -, h7, h8, -⟩ := bare_eq_iff.1 hbare
  refine ⟨l', w', hl, hrun', h5.symm, h1.symm, h2.symm, h3.symm, h8.symm, ?_, ?_⟩
  · rw [← Dict.keys_mapEntries (fun _ (a : AllocInfo) => ({ size := a.size } : AllocInfo))]
    exact (congrArg AList.keys h7.symm).trans (Dict.keys_mapEntries _ _)
  · rw [← sizes_clearMarks, ← h7, sizes_clearMarks]

/-- The application is paused and its references are asked for before an object is collected. -/
theorem recording_of_run_paused :
    ∃ l' w', List.Forall₂ Action.Same [.addAllocation 1 ⟨none, .empty⟩ 16 8 [], .work,
        .collect 2 false fun _ => none] l' ∧
      Run.run WorkerThread.step initial l' = some w' ∧
      eventCalls w'.eventsSink = [.alloc 1 16 8 (.ofLit "<global>.") (.ofLit "<no stack>")]
      ∧ w'.workItems.pending = [.free 2 16 8] := by
  obtain ⟨l', w', hl, hrun, hrecorded, -, -, hitems, -⟩ := recording_of_run
    (l := [.addAllocation 1 ⟨none, .empty⟩ 16 8 [], .work, .pause 0,
      .findReferences 1 [16] 1 (fun _ => some 16) (fun _ => none), .resume 2,
      .collect 2 false fun _ => none]) rfl
  refine ⟨l', w', hl, hrun, hrecorded.trans (by decide), ?_⟩
  rw [hitems]
  decide

end WorkerThread

end Owlcat
