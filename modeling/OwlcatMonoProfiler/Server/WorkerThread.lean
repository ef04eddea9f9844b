import OwlcatMonoProfiler.Common.MemoryStream
import OwlcatMonoProfiler.Library.Dict
import OwlcatMonoProfiler.Library.Fifo

/-!
# The worker thread: state and main loop

`server/src/worker_thread.h` and the part of `worker_thread.cpp` up to the work queue.  The worker
dequeues allocations and frees, keeps the map of live allocations and reports events to a sink.

* `MonoClass`, `MonoMethod`: what the runtime tells about a class or method handle;
* `WorkItem`, `AllocInfo`, `RootInfo`, `WorkerThread`: the data of the source.  A free item has no
  class and no callstack, so the two types of items are two constructors;
* `Report`: the calls of `events_sink`; the member `eventsSink` is the list of calls made so far;
* `doWork`: one iteration of the loop of `do_work`, or the clean-up behind it;
* `pauseApp`, `resumeApp`, `requestStop`: the requests that only touch the locks and `m_stop`.
-/

namespace Owlcat

/-- A class of the runtime: its namespace, which may be missing, and its name. -/
structure MonoClass where
  nspace : Option CString
  name : CString
  deriving DecidableEq

/-- A method of the runtime, as a callstack mentions it. -/
structure MonoMethod where
  klass : MonoClass
  name : CString
  deriving DecidableEq

/-- The number of characters `snprintf(buffer, sizeof(buffer) - 1, …)` keeps for a `char[2048]`. -/
def nameCapacity : ℕ := 2046

/-- Full class name, including namespace. -/
def getFullClassName (klass : MonoClass) : CString :=
  let namespaceName := klass.nspace.getD (CString.ofLit "<global>")
  (namespaceName ++ CString.ofLit "." ++ klass.name).truncate nameCapacity

/-- A work item to be processed by the worker thread. -/
inductive WorkItem
  | alloc (frame : UInt64) (klass : MonoClass) (obj : UInt64) (size : UInt32)
      (backtrace : List MonoMethod)
  | free (frame obj : UInt64) (size : UInt32)
  deriving DecidableEq

/-- The frame when the event happened. -/
def WorkItem.frame : WorkItem → UInt64
  | .alloc frame .. => frame
  | .free frame .. => frame

/-- Whether the item is an allocation. -/
def WorkItem.isAlloc : WorkItem → Bool
  | .alloc .. => true
  | .free .. => false

/-- Information about a single allocation.  Each bit of `flags` is a member of its own. -/
structure AllocInfo where
  size : UInt32
  tmpAllocated : Bool := false
  tmpVisited : Bool := false
  isRoot : Bool := false
  parents : List UInt64 := []
  deriving DecidableEq

/-- A root area. -/
structure RootInfo where
  start : UInt64
  size : UInt64
  deriving DecidableEq

/-- What a reference request finds out about one object. -/
structure ObjectReferences where
  addr : UInt64
  type : CString
  parents : List UInt64
  deriving DecidableEq

/-- A call of the events sink. -/
inductive Report
  | alloc (frame addr : UInt64) (size : UInt32) (fullName callstack : CString)
  | free (frame addr : UInt64) (size : UInt32)
  | references (requestId : UInt64) (references : List ObjectReferences)
  | paused (requestId : UInt64) (ok : Bool)
  | resumed (requestId : UInt64) (ok : Bool)
  deriving DecidableEq

/-- The members of `worker_thread`.  `fullName` is the static buffer of `find_references_internal`,
`stopLock` is `m_stop_lock.owns_lock()`, `exited` says that `do_work` has returned. -/
structure WorkerThread where
  allocated : UInt64 := 0
  freed : UInt64 := 0
  workItems : Fifo WorkItem := .empty
  workItemsEmpty : Bool := true
  eventsSink : List Report := []
  stop : Bool := false
  lastGcFrame : UInt64 := 0
  stopLock : Bool := false
  allocations : Dict UInt64 AllocInfo := ∅
  roots : List RootInfo := []
  fullName : CString := .empty
  exited : Bool := false

namespace WorkerThread

/-- Callstacks containing these words are not collected. -/
def stopwords : List CString :=
  [.ofLit "UberConsole", .ofLit "FPSCounter", .ofLit "CullStateChanged", .ofLit "IMGUI"]

/-- `strstr` finds the second string in the first. -/
def strstr (s t : CString) : Bool := t.bytes <:+: s.bytes

/-- The line of the callstack for one method. -/
def methodName (m : MonoMethod) : CString :=
  (m.klass.name ++ .ofLit "." ++ m.name ++ .ofLit "\n").truncate nameCapacity

/-- Append the lines of the callstack; `none` when a stop word is met. -/
def backtraceStr : CString → List MonoMethod → Option CString
  | str, [] => some str
  | str, m :: ms =>
    if stopwords.any (strstr (methodName m)) then none else backtraceStr (str ++ methodName m) ms

/-- The text reported for a callstack; `none` when it is on the stop-list. -/
def callstack (backtrace : List MonoMethod) : Option CString :=
  (backtraceStr .empty backtrace).map fun str =>
    if backtrace.isEmpty then .ofLit "<no stack>" else str

/-- A call of the events sink. -/
def report (w : WorkerThread) (r : Report) : WorkerThread :=
  { w with eventsSink := w.eventsSink ++ [r] }

/-- Report a free event and count its size. -/
def reportFree (w : WorkerThread) (frame addr : UInt64) (size : UInt32) : WorkerThread :=
  { w.report (.free frame addr size) with freed := w.freed + size.toUInt64 }

/-- Enter an allocation into the map; one that is there already is a reallocation. -/
def enterAllocation (w : WorkerThread) (frame addr : UInt64) (size : UInt32) : WorkerThread :=
  match w.allocations.lookup addr with
  | none => { w with allocations := w.allocations.insert addr { size := size } }
  | some alloc =>
    { w.reportFree frame addr alloc.size with
      allocations := Dict.modify addr (fun a => { a with size := size }) w.allocations }

/-- What `do_work` does with an item it has dequeued. -/
def processItem (w : WorkerThread) : WorkItem → WorkerThread
  | .free frame obj size => w.reportFree frame obj size
  | .alloc frame klass obj size backtrace =>
    match callstack backtrace with
    | none => w
    | some str =>
      let w := w.enterAllocation frame obj size
      { w.report (.alloc frame obj size (getFullClassName klass) str) with
        allocated := w.allocated + size.toUInt64 }

/-- Processing an item does not touch queue, flag or stop request. -/
theorem processItem_frame (w : WorkerThread) (item : WorkItem) :
    (w.processItem item).workItems = w.workItems ∧
      (w.processItem item).workItemsEmpty = w.workItemsEmpty ∧
      (w.processItem item).exited = w.exited := by
  cases item with
  | free => exact ⟨rfl, rfl, rfl⟩
  | alloc frame klass obj size backtrace =>
    simp only [processItem]
    cases callstack backtrace with
    | none => exact ⟨rfl, rfl, rfl⟩
    | some str =>
      simp only [enterAllocation]
      cases w.allocations.lookup obj <;> exact ⟨rfl, rfl, rfl⟩

/-- Processing an item does not touch the stop lock or the stop request. -/
theorem stop_processItem (w : WorkerThread) (item : WorkItem) :
    (w.processItem item).stop = w.stop ∧ (w.processItem item).stopLock = w.stopLock := by
  cases item with
  | free => exact ⟨rfl, rfl⟩
  | alloc frame klass obj size backtrace =>
    simp only [processItem]
    cases callstack backtrace with
    | none => exact ⟨rfl, rfl⟩
    | some str =>
      simp only [enterAllocation]
      cases w.allocations.lookup obj <;> exact ⟨rfl, rfl⟩

/-- Clear queue and map when the thread stops. -/
def cleanUp (w : WorkerThread) : WorkerThread :=
  { w with workItems := w.workItems.discard, allocations := ∅, exited := true }

/-- One iteration of the loop of `do_work`, or what follows the loop once `m_stop` is set. -/
def doWork (w : WorkerThread) : WorkerThread :=
  if w.stop then w.cleanUp
  else match w.workItems.tryDequeue with
    | none => { w with workItemsEmpty := true }
    | some (item, q) => { w with workItems := q, workItemsEmpty := false }.processItem item

/-- `add_allocation_async`; class, size and callstack are asked from the runtime on the spot. -/
def addAllocationAsync (w : WorkerThread) (frame : UInt64) (klass : MonoClass) (obj : UInt64)
    (size : UInt32) (backtrace : List MonoMethod) : WorkerThread :=
  { w with workItems := w.workItems.enqueue (.alloc frame klass obj size backtrace) }

/-- `pause_app`: take the stop lock, which blocks all threads that attempt an allocation. -/
def pauseApp (w : WorkerThread) (requestId : UInt64) : WorkerThread :=
  { w with stopLock := true }.report (.paused requestId true)

/-- `resume_app` -/
def resumeApp (w : WorkerThread) (requestId : UInt64) : WorkerThread :=
  { w with stopLock := false }.report (.resumed requestId true)

/-- `stop`, up to the wait for the thread: unpause the app and tell the loop to end. -/
def requestStop (w : WorkerThread) : WorkerThread :=
  { w with stopLock := false, stop := true }

end WorkerThread

end Owlcat
