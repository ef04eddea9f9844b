import OwlcatMonoProfiler.EndToEnd
import OwlcatMonoProfiler.Ui.GraphsData
import OwlcatMonoProfiler.Ui.LiveLists

/-!
# The numbers on the screen

The worker thread counts the bytes that were allocated and freed, the client keeps a running total
for the graph, and the list of types adds up the sizes of the live objects.  Once no free is on its
way any more they all tell the size of the objects the worker thread keeps track of.

* `netSize_events`, `bytes_eq`: the running total and the counters of the worker thread;
* `sum_size_objects`: the sizes of the live objects;
* `endsAt_of_stats`: the last point of the graph;
* `totals_of_run`: the numbers on the screen.
-/

namespace Owlcat

open Blocks ProfilerEvent

namespace WorkerThread

variable {w : WorkerThread}

theorem sum_tracked (w : WorkerThread) :
    ((tracked w.allocations).map fun e => e.2.toNat).sum = w.trackedSize := by
  rw [tracked, Dict.entries_mapEntries, List.map_map]
  simp only [trackedSize, Dict.total, Dict.values, List.map_map]
  rfl

/-- What was allocated, freed and is tracked, when no free is queued. -/
theorem allocTotal_eq (h : w.Accounted) (hqueue : w.workItems.pending = []) :
    AllocLog.allocTotal UInt32.toNat w.log =
      AllocLog.freeTotal UInt32.toNat w.log + w.trackedSize := by
  have hqueued : w.queuedFrees = [] := by rw [queuedFrees, hqueue, List.filterMap_nil]
  rw [h.outstanding.total_eq, outstanding, hqueued, List.append_nil, sum_tracked]

/-- The counters of the worker thread. -/
theorem bytes_eq (h : w.Accounted) (hqueue : w.workItems.pending = []) :
    w.allocated - w.freed = UInt64.ofNat w.trackedSize := by
  rw [h.allocated, h.freed, allocTotal_eq h hqueue, UInt64.ofNat_add]
  exact add_sub_cancel_left _ _

/-- The running total of the client. -/
theorem netSize_events (h : w.Accounted) (hqueue : w.workItems.pending = []) :
    netSize w.events = w.trackedSize := by
  rw [netSize_eq, map_event_events, allocTotal_eq h hqueue]
  push_cast
  ring

end WorkerThread

/-! ### The client -/

/-- The sizes of the objects shown are those of the objects tracked. -/
theorem Recorder.ShowsAllocations.sum_size {d : Recorder} {w : WorkerThread}
    {progressFunc : Option (ℕ → ℕ → Bool)} (h : d.ShowsAllocations progressFunc w.allocations) :
    let objects := d.getLiveObjects 0 Int32.maxValue progressFunc
    (objects.map LiveObject.size).sum = UInt64.ofNat w.trackedSize ∧
      objects.length = w.allocations.entries.length := by
  intro objects
  have hsum : (objects.map LiveObject.size).sum =
      (w.allocations.entries.map fun e => e.2.size.toUInt64).sum := by
    have hperm := h.map Prod.snd
    rw [List.map_map, List.map_map] at hperm
    exact hperm.sum_eq
  constructor
  · rw [hsum, WorkerThread.trackedSize, Dict.total, Dict.values, List.map_map, ← sum_ofNat,
      List.map_map]
    congr 1
    refine List.map_congr_left fun e _ => ?_
    exact (UInt64.ofNat_uInt32ToNat e.2.size).symm
  · have hlen := h.length_eq
    rwa [List.length_map, List.length_map] at hlen

/-- After the buffer is saved, all events and the statistics of all frames are stored. -/
theorem Ingested.saveFrameEvents_spec {d : Recorder} {db : Database}
    {saved es : List ProfilerEvent} (h : Ingested d db saved es) (hno : NoSentinel es) :
    ∃ db', d.saveFrameEvents.db = some { db := db' } ∧
      Recorded d.saveFrameEvents.types d.saveFrameEvents.callstacks db' es ∧
      ∀ f, db'.frameStats.lookup (DbValue.uint64 f).bind = statsOf? es f := by
  rcases eq_or_ne es [] with rfl | hes
  · -- nothing was received
    have hprev : d.prevFrame = Recorder.noFrame := h.prevFrame
    obtain ⟨hsaved, -⟩ := List.append_eq_nil_iff.1 h.events.symm
    rw [Recorder.saveFrameEvents_of_noFrame hprev]
    exact ⟨db, h.opened, hsaved ▸ h.recorded, fun f => h.stats f (by simp [lastKey])⟩
  · obtain ⟨db', types, callstacks, heq, hrec, hstats⟩ := h.toBuffered.saveFrameEvents hes hno
    rw [heq]
    exact ⟨db', rfl, hrec, hstats⟩

/-- The last point of the graph is the running total after all events. -/
theorem endsAt_of_stats {d : Recorder} {db : Database} {es : List ProfilerEvent}
    (hdb : d.db = some { db := db }) (hseq : Sequential es)
    (hstats : ∀ f, db.frameStats.lookup (DbValue.uint64 f).bind = statsOf? es f) {f : UInt64}
    (hlast : lastKey frame es = some f) :
    GraphsData.EndsAt d f (getUint64 (some (Int64.ofInt (netSize es)))) := by
  obtain ⟨l, e, hl, hef⟩ := lastKey_eq_some frame hlast
  have hmem : f ∈ es.map frame := by rw [hl, ← hef]; simp
  have hrow : db.frameStats.lookup (DbValue.uint64 f).bind = some (statsOf es f) := by
    rw [hstats, statsOf?, if_pos hmem]
  have hends := GraphsData.endsAt_of_lookup hdb hrow fun g hg hin => by
    obtain ⟨row, hrow⟩ := Dict.mem_iff_lookup.1 hin
    refine Option.some_ne_none row (hrow.symm.trans ((hstats g).trans (if_neg fun hmem => ?_)))
    obtain ⟨e', he', rfl⟩ := List.mem_map.1 hmem
    exact absurd hg (UInt64.not_lt.2 (le_of_lastKey hseq hlast e' he'))
  rwa [statsOf, through_of_lastKey hlast] at hends

/-- The numbers on the screen: the last point of the graph, and the totals of the list of types. -/
structure ShowsTotals (d : Recorder) (types : LiveLists.ByTypeModel) (w : WorkerThread) : Prop where
  graph : ∀ f, lastKey frame w.events = some f → GraphsData.EndsAt d f (w.allocated - w.freed)
  totalSize : types.totalSize = w.allocated - w.freed
  count : (types.rows.map LiveLists.TypeRow.count).sum =
    UInt64.ofNat w.allocations.entries.length

/-- The counts of the types add up to the number of objects. -/
theorem sum_count_types (objs : List LiveObject) :
    ((LiveObjectsData.addObjects objs).types.map LiveObjectsData.TypeData.count).sum =
      UInt64.ofNat objs.length := by
  have hcount : ∀ l : List LiveObject,
      UInt64.ofNat l.length = (l.map fun _ => (1 : UInt64)).sum := fun l => by
    rw [show (l.map fun _ => (1 : UInt64)) = (l.map fun _ => 1).map UInt64.ofNat by
      rw [List.map_map]; rfl, sum_ofNat, List.map_const', List.sum_replicate, smul_eq_mul, mul_one]
  rw [LiveObjectsData.types_addObjects, List.map_map, hcount]
  refine Eq.trans ?_ (Grouping.sum_withKey LiveObject.typeId objs (Grouping.nodup_eraseDups _)
    (fun o ho => List.mem_eraseDups.2 (List.mem_map_of_mem ho)) fun _ => 1)
  congr 1
  exact List.map_congr_left fun k _ => hcount _

theorem Recorder.ShowsAllocations.showsTotals {d : Recorder} {db : Database} {w : WorkerThread}
    {progressFunc : Option (ℕ → ℕ → Bool)} {names : UInt64 → List UInt8}
    {outcome : List LiveLists.TypeRow} {types : LiveLists.ByTypeModel}
    (h : d.ShowsAllocations progressFunc w.allocations) (hdb : d.db = some { db := db })
    (hseq : Sequential w.events)
    (hstats : ∀ f, db.frameStats.lookup (DbValue.uint64 f).bind = statsOf? w.events f)
    (haccounted : w.Accounted) (hqueue : w.workItems.pending = [])
    (htypes : LiveLists.ByTypeModel.update names
      (LiveObjectsData.addObjects (d.getLiveObjects 0 Int32.maxValue progressFunc)).types outcome =
        some types) : ShowsTotals d types w := by
  obtain ⟨hsize, hlength⟩ := h.sum_size
  have hbytes := WorkerThread.bytes_eq haccounted hqueue
  obtain ⟨hperm, htotal⟩ := LiveLists.update_spec htypes
  constructor
  · intro f hlast
    have hends := endsAt_of_stats hdb hseq hstats hlast
    rw [WorkerThread.netSize_events haccounted hqueue] at hends
    rw [hbytes]
    exact hends
  · rw [htotal, LiveLists.sum_size_types, hsize, hbytes]
  · have hcount := (hperm.map LiveLists.TypeRow.count).sum_eq
    rw [List.map_map] at hcount
    rw [hcount, ← hlength]
    exact sum_count_types _

end Owlcat
