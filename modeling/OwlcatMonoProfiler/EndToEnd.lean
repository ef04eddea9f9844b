import OwlcatMonoProfiler.Client.LiveObjects
import OwlcatMonoProfiler.Server.Accounting

/-!
# From the worker thread to the list of live objects

A client that is connected from the first event gets all calls of the events sink as messages.  Its
list of live objects is then the map of the worker thread, once no free is on its way any more.

* `EventsFrom.step`: the events of the sink have the frames of the items they come from, in the
  order of the queue;
* `decodeEvents_reports`: what the client receives is what the sink was told;
* `liveObjects_refine_allocations`: queue and buffer are empty, so the objects are the entries.
-/

namespace Owlcat

open ProfilerEvent

/-! ### The frames of the events -/

namespace WorkerThread

/-- The events in the sink, as the client receives them. -/
def events (w : WorkerThread) : List ProfilerEvent := w.eventsSink.filterMap Report.profilerEvent

theorem events_report (w : WorkerThread) (r : Report) :
    (w.report r).events = w.events ++ r.profilerEvent.toList := by
  simp only [events, report, List.filterMap_append]
  cases r <;> rfl

theorem map_event_events (w : WorkerThread) : w.events.map event = w.log := by
  rw [events, log, List.map_filterMap]
  refine List.filterMap_congr fun r _ => ?_
  cases r <;> rfl

/-- Each item that was taken out of the queue accounts for at most two events of its frame. -/
def EventsFrom (w : WorkerThread) : Prop :=
  (w.events.map frame).Sublist
    ((w.workItems.enqueued.take w.workItems.taken).flatMap fun item => [item.frame, item.frame])

theorem EventsFrom.of_prefix {w w' : WorkerThread} (h : EventsFrom w)
    (hevents : w'.events = w.events)
    (hqueue : w.workItems.enqueued.take w.workItems.taken <+:
      w'.workItems.enqueued.take w'.workItems.taken) : EventsFrom w' := by
  rw [EventsFrom, hevents]
  refine List.Sublist.trans h ?_
  obtain ⟨rest, hrest⟩ := hqueue
  rw [← hrest, List.flatMap_append]
  exact List.sublist_append_left _ _

theorem take_enqueueAll (q : Fifo WorkItem) (l : List WorkItem) :
    q.enqueued.take q.taken <+: (q.enqueueAll l).enqueued.take (q.enqueueAll l).taken := by
  rw [Fifo.enqueued_enqueueAll, Fifo.taken_enqueueAll, List.take_append_of_le_length q.taken_le]

/-- What an item adds to the events. -/
theorem events_processItem (w : WorkerThread) (item : WorkItem) :
    ∃ new, (w.processItem item).events = w.events ++ new ∧
      (new.map frame).Sublist [item.frame, item.frame] := by
  cases item with
  | free frame obj size =>
    exact ⟨_, events_report w _, List.sublist_append_left [frame] [frame]⟩
  | alloc frame klass obj size backtrace =>
    simp only [processItem]
    cases callstack backtrace with
    | none => exact ⟨[], (List.append_nil _).symm, List.nil_sublist _⟩
    | some str =>
      unfold enterAllocation
      cases w.allocations.lookup obj with
      | none => exact ⟨_, events_report _ _, List.sublist_append_left [frame] [frame]⟩
      | some alloc =>
        refine ⟨[⟨.free, frame, obj, alloc.size, [], []⟩,
          ⟨.alloc, frame, obj, size, (getFullClassName klass).bytes, str.bytes⟩], ?_,
          List.Sublist.refl [frame, frame]⟩
        refine (events_report _ _).trans ?_
        change (w.report (.free frame obj alloc.size)).events ++ _ = _
        rw [events_report, List.append_assoc]
        rfl

/-- **Every action keeps the frames of the events in the order of the queue.** -/
theorem EventsFrom.step {w w' : WorkerThread} {a : Action} (h : EventsFrom w)
    (hparents : NoDangling w.allocations) (hstep : w.step a = some w') : EventsFrom w' := by
  have hevent : ∀ (v : WorkerThread) (r : Report), r.profilerEvent = none →
      (v.report r).events = v.events := fun v r hr => by
    rw [events_report, hr, Option.toList_none, List.append_nil]
  cases a with
  | addAllocation frame klass obj size backtrace =>
    cases hstep
    exact h.of_prefix rfl (take_enqueueAll w.workItems [.alloc frame klass obj size backtrace])
  | work =>
    simp only [WorkerThread.step] at hstep
    split_ifs at hstep
    cases hstep
    unfold doWork
    split_ifs
    · -- what is thrown away at the end counts as taken, and makes no event
      refine h.of_prefix rfl ?_
      change _ <+: w.workItems.enqueued.take w.workItems.enqueued.length
      rw [List.take_length]
      exact List.take_prefix _ _
    · cases hq : w.workItems.tryDequeue with
      | none => exact h
      | some p =>
        obtain ⟨item, q⟩ := p
        obtain ⟨hpending, henqueued, htaken⟩ := Fifo.tryDequeue_eq_some hq
        have hlast : w.workItems.enqueued.take (w.workItems.taken + 1) =
            w.workItems.enqueued.take w.workItems.taken ++ [item] := by
          rw [List.take_add, ← Fifo.pending, hpending]
          rfl
        -- an item makes at most two events, both with its frame
        obtain ⟨new, hnew, hsub⟩ :=
          events_processItem { w with workItems := q, workItemsEmpty := false } item
        rw [EventsFrom, (processItem_frame _ item).1, hnew, List.map_append]
        change (w.events.map frame ++ new.map frame).Sublist _
        rw [show (q.enqueued.take q.taken) = _ from (by rw [henqueued, htaken, hlast]),
          List.flatMap_append]
        exact h.append (by simpa using hsub)
  | collect frame only mem =>
    cases hstep
    cases only with
    | true => exact h.of_prefix rfl (List.prefix_refl _)
    | false => exact h.of_prefix rfl (take_enqueueAll w.workItems _)
  | registerRoot => cases hstep; exact h
  | unregisterRoot => cases hstep; exact h
  | findReferences id addrs frame mem classOf =>
    obtain ⟨-, buffer, hfind⟩ :=
      findReferencesInternal_spec (hparents.refreshParents frame mem) id addrs classOf
    rw [WorkerThread.step, findReferences, hfind] at hstep
    cases hstep
    have hrefresh : EventsFrom (w.refreshParents frame mem) := by
      unfold refreshParents
      split_ifs
      · exact h.of_prefix rfl (List.prefix_refl _)
      · exact h
    exact hrefresh.of_prefix (hevent _ _ rfl) (List.prefix_refl _)
  | pause id => cases hstep; exact h.of_prefix (hevent _ _ rfl) (List.prefix_refl _)
  | resume id => cases hstep; exact h.of_prefix (hevent _ _ rfl) (List.prefix_refl _)
  | stop => cases hstep; exact h
  | rehash m =>
    simp only [WorkerThread.step] at hstep
    split_ifs at hstep
    cases hstep
    exact h

theorem eventsFrom_initial : EventsFrom initial := by
  change ([] : List UInt64).Sublist []
  exact List.Sublist.refl []

theorem eventsFrom_of_run {l : List Action} {w : WorkerThread}
    (hrun : Run.run WorkerThread.step WorkerThread.initial l = some w) : EventsFrom w :=
  (Run.reachable_invariant (I := fun w => NoDangling w.allocations ∧ EventsFrom w)
    (fun _ _ _ h hstep => ⟨h.1.step hstep, h.2.step h.1 hstep⟩)
    ⟨noDangling_initial, eventsFrom_initial⟩ ⟨l, hrun⟩).2

/-- The frames of the items never go backwards, and fit into an `int`. -/
structure QueueOrdered (w : WorkerThread) : Prop where
  ordered : w.workItems.enqueued.Pairwise fun x y => x.frame ≤ y.frame
  fitInt : ∀ item ∈ w.workItems.enqueued, item.frame < 0x80000000

theorem EventsFrom.sequential {w : WorkerThread} (h : EventsFrom w) (hqueue : QueueOrdered w) :
    Sequential w.events ∧ FramesFitInt w.events := by
  have htaken : ∀ item ∈ w.workItems.enqueued.take w.workItems.taken,
      item.frame < 0x80000000 := fun item hitem => hqueue.fitInt item (List.mem_of_mem_take hitem)
  have hordered : ((w.workItems.enqueued.take w.workItems.taken).flatMap
      fun item => [item.frame, item.frame]).Pairwise (· ≤ ·) := by
    refine List.pairwise_flatMap.2 ⟨fun item _ => by simp, ?_⟩
    refine (hqueue.ordered.sublist (List.take_sublist _ _)).imp fun {x y} hxy f hf g hg => ?_
    have hf' : f = x.frame := by simpa using hf
    have hg' : g = y.frame := by simpa using hg
    rw [hf', hg']
    exact hxy
  refine ⟨List.pairwise_map.1 (hordered.sublist h), fun e he => ?_⟩
  obtain ⟨item, hitem, hf⟩ := List.mem_flatMap.1 (h.subset (List.mem_map_of_mem he))
  have hf' : e.frame = item.frame := by simpa using hf
  rw [hf']
  exact htaken item hitem

end WorkerThread

/-! ### The client -/

theorem decodeEvent_reportPacket (u : Uninit) {report : Report}
    (hlen : (reportPacket report).data.length < 2 ^ 64) :
    decodeEvent u (reportPacket report) = report.profilerEvent := by
  cases report with
  | alloc | free => exact decodeEvent_of_carries (carries_reportPacket rfl hlen) u
  | references | paused | resumed => rfl

/-- What the client receives is what was reported. -/
theorem decodeEvents_reports (u : Uninit) {reports : List Report}
    (hlen : ∀ r ∈ reports, (reportPacket r).data.length < 2 ^ 64) :
    decodeEvents u (reports.map reportPacket) = reports.filterMap Report.profilerEvent := by
  rw [decodeEvents, List.filterMap_map]
  exact List.filterMap_congr fun r hr => decodeEvent_reportPacket u (hlen r hr)

/-- The objects shown for all frames are the entries of a map, each with its address and size. -/
def Recorder.ShowsAllocations (d : Recorder) (progressFunc : Option (ℕ → ℕ → Bool))
    (allocations : Dict UInt64 AllocInfo) : Prop :=
  ((d.getLiveObjects 0 Int32.maxValue progressFunc).map fun o => (o.addr, o.size)).Perm
    (allocations.entries.map fun e => (e.1, e.2.size.toUInt64))

theorem Recorded.showsAllocations {d : Recorder} {db : Database} {w : WorkerThread}
    (hdb : d.db = some { db := db }) (h : Recorded d.types d.callstacks db w.events)
    (hseq : Sequential w.events) (hframes : FramesFitInt w.events) (haccounted : w.Accounted)
    (hqueue : w.workItems.pending = []) {progressFunc : Option (ℕ → ℕ → Bool)}
    (hprogress : NeverCancels progressFunc) : d.ShowsAllocations progressFunc w.allocations := by
  have hall : (w.events.filter fun e => (0 : UInt64) ≤ e.frame ∧ e.frame ≤ 0x7FFFFFFF) =
      w.events := by
    refine List.filter_eq_self.2 fun e he => decide_eq_true ⟨UInt64.zero_le, ?_⟩
    have hlt := UInt64.lt_iff_toNat_lt.1 (hframes e he)
    exact UInt64.le_iff_toNat_le.2 (Nat.le_of_lt_succ hlt)
  have hout := haccounted.outstanding
  rw [WorkerThread.outstanding, WorkerThread.queuedFrees, hqueue, List.filterMap_nil,
    List.append_nil] at hout
  have hfrom : (0 : Int32).toInt64.toUInt64 = 0 := rfl
  have hto : Int32.maxValue.toInt64.toUInt64 = 0x7FFFFFFF := rfl
  rw [Recorder.ShowsAllocations,
    h.getLiveObjects_eq hdb hseq hframes hfrom hto (by decide) (by decide) hprogress, hall]
  refine (liveObjects_perm d.types d.callstacks w.events).trans ?_
  rw [WorkerThread.map_event_events]
  refine (hout.entries_replay.map _).trans (List.Perm.of_eq ?_)
  rw [WorkerThread.tracked, Dict.entries_mapEntries, List.map_map]
  rfl

/-- **The list of live objects refines the map of the worker thread.**  The queue is empty, the
client has processed all messages, and its buffer is empty or is saved now. -/
theorem liveObjects_refine_allocations (u : Uninit) {l : List WorkerThread.Action}
    {w : WorkerThread} (hrun : Run.run WorkerThread.step WorkerThread.initial l = some w)
    (hdrained : Run.Along WorkerThread.step WorkerThread.CollectsDrained WorkerThread.initial l)
    (hrunning : w.exited = false) (hordered : w.QueueOrdered) (hqueue : w.workItems.pending = [])
    (hlen : ∀ r ∈ w.eventsSink, (reportPacket r).data.length < 2 ^ 32)
    {progressFunc : Option (ℕ → ℕ → Bool)} (hprogress : NeverCancels progressFunc) :
    let d := (freshClient.processMessages u (w.eventsSink.map reportPacket)).toRecorder
    (d.frameEvents = [] → d.ShowsAllocations progressFunc w.allocations) ∧
      d.saveFrameEvents.ShowsAllocations progressFunc w.allocations := by
  have haccounted := (WorkerThread.consistent_of_run hrun hdrained).accounted hrunning
  obtain ⟨hseq, hframes⟩ := (WorkerThread.eventsFrom_of_run hrun).sequential hordered
  intro d
  have hd : d = freshClient.toRecorder.addEvents w.events := by
    rw [WorkerThread.events,
      ← decodeEvents_reports u fun r hr => (hlen r hr).trans (by norm_num)]
    exact Details.processMessages_toRecorder u (Or.inr rfl) _
  obtain ⟨db, saved, h⟩ := ingested_freshClient hframes.noSentinel
  rw [← hd] at h
  have hempty : d.frameEvents = [] → d.ShowsAllocations progressFunc w.allocations := by
    intro hnil
    have hsaved : saved = w.events := by rw [h.events, hnil, List.append_nil]
    exact Recorded.showsAllocations h.opened (hsaved ▸ h.recorded) hseq hframes haccounted hqueue
      hprogress
  refine ⟨hempty, ?_⟩
  rcases eq_or_ne w.events [] with hnil | hes
  · -- nothing was received
    have hprev : d.prevFrame = Recorder.noFrame := by rw [h.prevFrame, hnil]; rfl
    have hbuffer : d.frameEvents = [] := by
      have hevents := h.events
      rw [hnil] at hevents
      exact (List.append_eq_nil_iff.1 hevents.symm).2
    rw [Recorder.saveFrameEvents_of_noFrame hprev]
    exact hempty hbuffer
  · obtain ⟨db', types, callstacks, heq, hrec, -⟩ :=
      h.toBuffered.saveFrameEvents hes hframes.noSentinel
    rw [heq]
    exact Recorded.showsAllocations rfl hrec hseq hframes haccounted hqueue hprogress

/-- The address of a collected object is used again before its free is reported, and the object
there stays. -/
theorem liveObjects_refine_reuseRun :
    ∃ w, Run.run WorkerThread.step WorkerThread.initial WorkerThread.reuseRun = some w ∧
      (let d := (freshClient.processMessages ⟨0, 0, 0⟩ (w.eventsSink.map reportPacket)).toRecorder
      (d.frameEvents = [] → d.ShowsAllocations none w.allocations) ∧
        d.saveFrameEvents.ShowsAllocations none w.allocations) :=
  ⟨_, rfl, liveObjects_refine_allocations ⟨0, 0, 0⟩ (l := WorkerThread.reuseRun) rfl (by decide) rfl
    ⟨by decide, by decide⟩ rfl (by decide) (fun _ h => (by cases h))⟩

end Owlcat
