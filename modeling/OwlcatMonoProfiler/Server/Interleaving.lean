import OwlcatMonoProfiler.Library.Run
import OwlcatMonoProfiler.Server.Collector

/-!
# The worker loop and concurrent collections

The loop of `do_work` and the calls of `do_gc_sync`, taken apart into the steps other threads can
come between: flag reads and writes, queue operations, lock acquisitions and releases.

* `WorkerPc`, `CallPc`, `State`: where each thread is, and who holds `m_gc_mutex`; every call of
  `do_gc_sync` has a number of its own;
* `Action`, `step`: one step of one thread; `WorkerMove`, `Move`: what a step can be;
* `StartsCleanly`: a call does not start while an allocation is pending and the flag is set, or
  about to be set after a dequeue that has already failed;
* `processed_of_collecting`: then no collection overtakes an allocation enqueued before the call;
* `overtaking_possible`: a call that starts otherwise can overtake one.
-/

namespace Owlcat

namespace Interleaving

/-- The next step of the worker thread in the loop of `do_work`. -/
inductive WorkerPc
  | loopHead
  | clearFlag
  | takeMutex
  | dequeue
  | setFlag
  | process (item : WorkItem)
  | releaseMutex
  | returned
  deriving DecidableEq

/-- The arguments of a call of `do_gc_sync`, and how many items had been enqueued when it
started. -/
structure GcCall where
  frame : UInt64
  onlyUpdateParents : Bool
  enqueuedBefore : ℕ
  deriving DecidableEq

/-- Where a call of `do_gc_sync` is: waiting for the flag, about to take the mutex, or at the
beginning of the collection. -/
inductive CallPc
  | notStarted
  | waiting (call : GcCall)
  | entering (call : GcCall)
  | collecting (call : GcCall)
  | returned
  deriving DecidableEq

/-- Who holds `m_gc_mutex`. -/
inductive Owner
  | worker
  | call (c : ℕ)
  deriving DecidableEq

/-- The worker thread's data, the positions of all threads, and the mutex. -/
structure State where
  thread : WorkerThread := {}
  pc : WorkerPc := .loopHead
  gcMutex : Option Owner := none
  calls : ℕ → CallPc := fun _ => .notStarted

/-- One step of one thread. -/
inductive Action
  | worker
  | enqueue (frame : UInt64) (klass : MonoClass) (obj : UInt64) (size : UInt32)
      (backtrace : List MonoMethod)
  | startGc (c : ℕ) (frame : UInt64) (onlyUpdateParents : Bool)
  | readFlag (c : ℕ)
  | takeMutex (c : ℕ)
  | collect (c : ℕ) (mem : Memory)
  | stop

/-- The next step of the worker thread; `none` when it is blocked or has returned. -/
def workerStep (s : State) : Option State :=
  match s.pc with
  | .loopHead =>
    if s.thread.stop then some { s with thread := s.thread.cleanUp, pc := .returned }
    else some { s with pc := .clearFlag }
  | .clearFlag =>
    some { s with thread := { s.thread with workItemsEmpty := false }, pc := .takeMutex }
  | .takeMutex =>
    if s.gcMutex = none then some { s with gcMutex := some .worker, pc := .dequeue } else none
  | .dequeue =>
    match s.thread.workItems.tryDequeue with
    | none => some { s with pc := .setFlag }
    | some (item, q) =>
      some { s with thread := { s.thread with workItems := q }, pc := .process item }
  | .setFlag =>
    some { s with thread := { s.thread with workItemsEmpty := true }, pc := .releaseMutex }
  | .process item => some { s with thread := s.thread.processItem item, pc := .releaseMutex }
  | .releaseMutex => some { s with gcMutex := none, pc := .loopHead }
  | .returned => none

/-- Move one call. -/
def setCall (s : State) (c : ℕ) (p : CallPc) : State :=
  { s with calls := Function.update s.calls c p }

/-- The state after a step. -/
def step (s : State) : Action → Option State
  | .worker => workerStep s
  | .enqueue frame klass obj size backtrace =>
    some { s with thread := s.thread.addAllocationAsync frame klass obj size backtrace }
  | .startGc c frame onlyUpdateParents =>
    match s.calls c with
    | .notStarted =>
      some (setCall s c
        (.waiting ⟨frame, onlyUpdateParents, s.thread.workItems.enqueued.length⟩))
    | _ => none
  | .readFlag c =>
    match s.calls c with
    | .waiting call => some (if s.thread.workItemsEmpty then setCall s c (.entering call) else s)
    | _ => none
  | .takeMutex c =>
    match s.calls c with
    | .entering call =>
      if s.gcMutex = none then
        some (setCall { s with gcMutex := some (.call c) } c (.collecting call))
      else none
    | _ => none
  | .collect c mem =>
    match s.calls c with
    | .collecting call =>
      some (setCall { s with
        thread := s.thread.doGcSync call.frame call.onlyUpdateParents mem
        gcMutex := none } c .returned)
    | _ => none
  | .stop => some { s with thread := s.thread.requestStop }

/-- Before any thread has made a step. -/
def initial : State := {}

/-- How many of the enqueued items are processed or thrown away. -/
def State.processed (s : State) : ℕ :=
  match s.pc with
  | .process _ => s.thread.workItems.taken - 1
  | _ => s.thread.workItems.taken

/-- An allocation is waiting in the queue. -/
def State.AllocPending (s : State) : Prop := ∃ item ∈ s.thread.workItems.pending, item.isAlloc

/-- The flag is set, or a dequeue has failed and it is about to be set. -/
def State.FlagRaised (s : State) : Prop := s.thread.workItemsEmpty ∨ s.pc = .setFlag

/-- The condition under which calls start. -/
def StartsCleanly (s : State) : Action → Prop
  | .startGc .. => ¬(s.AllocPending ∧ s.FlagRaised)
  | _ => True

instance (s : State) : Decidable s.AllocPending :=
  inferInstanceAs (Decidable (∃ item ∈ s.thread.workItems.pending, item.isAlloc))

instance (s : State) : Decidable s.FlagRaised :=
  inferInstanceAs (Decidable (s.thread.workItemsEmpty ∨ s.pc = .setFlag))

instance (s : State) : ∀ a, Decidable (StartsCleanly s a)
  | .startGc .. => inferInstanceAs (Decidable (¬(s.AllocPending ∧ s.FlagRaised)))
  | .worker | .enqueue .. | .readFlag _ | .takeMutex _ | .collect .. | .stop => .isTrue trivial

/-- The first `n` items have no allocation left to process. -/
def State.Ready (s : State) (n : ℕ) : Prop :=
  ∀ i item, s.processed ≤ i → i < n → s.thread.workItems.enqueued[i]? = some item →
    item.isAlloc = false

/-- The item that is being processed and the items behind it. -/
def State.left (s : State) : List WorkItem :=
  match s.pc with
  | .process item => item :: s.thread.workItems.pending
  | _ => s.thread.workItems.pending

/-- What the worker thread does in one step. -/
inductive WorkerMove (s : State) : State → Prop
  | exit (hpc : s.pc = .loopHead) (hstop : s.thread.stop = true) :
    WorkerMove s { s with thread := s.thread.cleanUp, pc := .returned }
  | iterate (hpc : s.pc = .loopHead) (hstop : s.thread.stop = false) :
    WorkerMove s { s with pc := .clearFlag }
  | clearFlag (hpc : s.pc = .clearFlag) :
    WorkerMove s { s with thread := { s.thread with workItemsEmpty := false }, pc := .takeMutex }
  | takeMutex (hpc : s.pc = .takeMutex) (hfree : s.gcMutex = none) :
    WorkerMove s { s with gcMutex := some .worker, pc := .dequeue }
  | dequeueFails (hpc : s.pc = .dequeue) (hnil : s.thread.workItems.pending = []) :
    WorkerMove s { s with pc := .setFlag }
  | dequeue (item : WorkItem) (q : Fifo WorkItem) (hpc : s.pc = .dequeue)
      (hq : s.thread.workItems.tryDequeue = some (item, q)) :
    WorkerMove s { s with thread := { s.thread with workItems := q }, pc := .process item }
  | setFlag (hpc : s.pc = .setFlag) :
    WorkerMove s { s with thread := { s.thread with workItemsEmpty := true }, pc := .releaseMutex }
  | process (item : WorkItem) (hpc : s.pc = .process item) :
    WorkerMove s { s with thread := s.thread.processItem item, pc := .releaseMutex }
  | releaseMutex (hpc : s.pc = .releaseMutex) :
    WorkerMove s { s with gcMutex := none, pc := .loopHead }

theorem workerMove {s t : State} (hstep : workerStep s = some t) : WorkerMove s t := by
  unfold workerStep at hstep
  cases hpc : s.pc with
  | loopHead =>
    simp only [hpc] at hstep
    split_ifs at hstep with hstop <;> cases hstep
    · exact .exit hpc hstop
    · exact .iterate hpc (by simpa using hstop)
  | takeMutex =>
    simp only [hpc] at hstep
    split_ifs at hstep with hfree
    cases hstep
    exact .takeMutex hpc hfree
  | dequeue =>
    cases hq : s.thread.workItems.tryDequeue with
    | none =>
      simp only [hpc, hq, Option.some.injEq] at hstep
      subst hstep
      exact .dequeueFails hpc (Fifo.tryDequeue_eq_none.1 hq)
    | some p =>
      simp only [hpc, hq, Option.some.injEq] at hstep
      subst hstep
      exact .dequeue p.1 p.2 hpc hq
  | clearFlag =>
    simp only [hpc, Option.some.injEq] at hstep
    subst hstep
    exact .clearFlag hpc
  | setFlag =>
    simp only [hpc, Option.some.injEq] at hstep
    subst hstep
    exact .setFlag hpc
  | process item =>
    simp only [hpc, Option.some.injEq] at hstep
    subst hstep
    exact .process item hpc
  | releaseMutex =>
    simp only [hpc, Option.some.injEq] at hstep
    subst hstep
    exact .releaseMutex hpc
  | returned => simp [hpc] at hstep

/-- What a step can be. -/
inductive Move (s : State) : Action → State → Prop
  | worker {t : State} (h : WorkerMove s t) : Move s .worker t
  | enqueue (frame : UInt64) (klass : MonoClass) (obj : UInt64) (size : UInt32)
      (backtrace : List MonoMethod) :
    Move s (.enqueue frame klass obj size backtrace)
      { s with thread := s.thread.addAllocationAsync frame klass obj size backtrace }
  | startGc (c : ℕ) (frame : UInt64) (onlyUpdateParents : Bool) (hc : s.calls c = .notStarted) :
    Move s (.startGc c frame onlyUpdateParents)
      (setCall s c (.waiting ⟨frame, onlyUpdateParents, s.thread.workItems.enqueued.length⟩))
  | seeFlag (c : ℕ) (call : GcCall) (hc : s.calls c = .waiting call)
      (hflag : s.thread.workItemsEmpty = true) : Move s (.readFlag c) (setCall s c (.entering call))
  | wait (c : ℕ) (call : GcCall) (hc : s.calls c = .waiting call)
      (hflag : s.thread.workItemsEmpty = false) : Move s (.readFlag c) s
  | takeMutex (c : ℕ) (call : GcCall) (hc : s.calls c = .entering call) (hfree : s.gcMutex = none) :
    Move s (.takeMutex c) (setCall { s with gcMutex := some (.call c) } c (.collecting call))
  | collect (c : ℕ) (call : GcCall) (mem : Memory) (hc : s.calls c = .collecting call) :
    Move s (.collect c mem)
      (setCall { s with
        thread := s.thread.doGcSync call.frame call.onlyUpdateParents mem
        gcMutex := none } c .returned)
  | stop : Move s .stop { s with thread := s.thread.requestStop }

theorem move {s t : State} {a : Action} (hstep : step s a = some t) : Move s a t := by
  cases a with
  | worker => exact .worker (workerMove hstep)
  | enqueue frame klass obj size backtrace =>
    cases hstep
    exact .enqueue frame klass obj size backtrace
  | startGc c frame only =>
    simp only [step] at hstep
    cases hc : s.calls c <;> simp only [hc, Option.some.injEq, reduceCtorEq] at hstep
    subst hstep
    exact .startGc c frame only hc
  | readFlag c =>
    simp only [step] at hstep
    cases hc : s.calls c <;> simp only [hc, Option.some.injEq, reduceCtorEq] at hstep
    split_ifs at hstep with hflag <;> subst hstep
    · exact .seeFlag c _ hc hflag
    · exact .wait c _ hc (by simpa using hflag)
  | takeMutex c =>
    simp only [step] at hstep
    cases hc : s.calls c <;> simp only [hc, reduceCtorEq] at hstep
    split_ifs at hstep with hfree
    cases hstep
    exact .takeMutex c _ hc hfree
  | collect c mem =>
    simp only [step] at hstep
    cases hc : s.calls c <;> simp only [hc, Option.some.injEq, reduceCtorEq] at hstep
    subst hstep
    exact .collect c _ mem hc
  | stop =>
    cases hstep
    exact .stop

/-- **One step of the worker thread**: it processes the item in its hands, or it takes and drops
items without touching map and events. -/
theorem workerStep_left {s t : State} (hstep : workerStep s = some t) :
    t.thread.workItems.enqueued = s.thread.workItems.enqueued ∧
      (t.left.Sublist s.left ∧ t.thread.eventsSink = s.thread.eventsSink ∧
          (s.thread.stop = false → t.thread.allocations = s.thread.allocations) ∨
        ∃ item, s.pc = .process item ∧ s.left = item :: t.left ∧
          t.thread = s.thread.processItem item) := by
  cases workerMove hstep with
  | exit hpc hstop =>
    -- `do_work` returns and throws the queue and the map away
    refine ⟨rfl, Or.inl ⟨?_, rfl, by simp [hstop]⟩⟩
    simp [State.left, WorkerThread.cleanUp]
  | dequeue item q hpc hq =>
    obtain ⟨hpending, henqueued, -⟩ := Fifo.tryDequeue_eq_some hq
    exact ⟨henqueued, Or.inl ⟨by simp [State.left, hpc, hpending], rfl, fun _ => rfl⟩⟩
  | process item hpc =>
    have hqueue := (s.thread.processItem_frame item).1
    exact ⟨congrArg Fifo.enqueued hqueue,
      Or.inr ⟨item, hpc, by simp [State.left, hpc, hqueue], rfl⟩⟩
  | iterate hpc | clearFlag hpc | takeMutex hpc | dequeueFails hpc | setFlag hpc
  | releaseMutex hpc => exact ⟨rfl, Or.inl ⟨by simp [State.left, hpc], rfl, fun _ => rfl⟩⟩

theorem workerStep_stop {s t : State} (hstep : workerStep s = some t) :
    t.thread.stop = s.thread.stop ∧ t.thread.stopLock = s.thread.stopLock := by
  cases workerMove hstep with
  | process item => exact s.thread.stop_processItem item
  | _ => exact ⟨rfl, rfl⟩

/-! ### The invariant -/

/-- What is known about a call. -/
def CallInv (s : State) : CallPc → Prop
  | .notStarted | .returned => True
  | .waiting call =>
    call.enqueuedBefore ≤ s.thread.workItems.enqueued.length ∧
      (¬s.FlagRaised ∨ s.Ready call.enqueuedBefore)
  | .entering call | .collecting call =>
    call.enqueuedBefore ≤ s.thread.workItems.enqueued.length ∧ s.Ready call.enqueuedBefore

/-- The worker thread holds the mutex at this point of the loop. -/
def WorkerPc.holdsMutex : WorkerPc → Bool
  | .dequeue | .setFlag | .process _ | .releaseMutex => true
  | _ => false

/-- The worker thread takes and releases the mutex for itself only. -/
theorem workerStep_mutex {s t : State} (h : s.gcMutex = some .worker ↔ s.pc.holdsMutex)
    (hstep : workerStep s = some t) :
    (t.gcMutex = some .worker ↔ t.pc.holdsMutex) ∧
      ∀ c, s.gcMutex = some (.call c) → t.gcMutex = some (.call c) := by
  cases workerMove hstep with
  | takeMutex hpc hfree => simp [WorkerPc.holdsMutex, hfree]
  | releaseMutex hpc =>
    have hmutex := h.2 (by rw [hpc]; rfl)
    simp [WorkerPc.holdsMutex, hmutex]
  | exit hpc | iterate hpc | clearFlag hpc | dequeueFails hpc | dequeue item q hpc | setFlag hpc
  | process item hpc =>
    rw [hpc] at h
    exact ⟨h, fun _ hc => hc⟩

/-- The worker thread has cleared the flag and not set it again. -/
def WorkerPc.flagCleared : WorkerPc → Bool
  | .takeMutex | .dequeue | .setFlag | .process _ => true
  | _ => false

/-- **The invariant of all interleavings.** -/
structure Inv (s : State) : Prop where
  worker_mutex : s.gcMutex = some .worker ↔ s.pc.holdsMutex
  call_mutex : ∀ c, s.gcMutex = some (.call c) ↔ ∃ call, s.calls c = .collecting call
  flag_cleared : s.pc.flagCleared → s.thread.workItemsEmpty = false
  taken_pos : ∀ item, s.pc = .process item → 0 < s.thread.workItems.taken
  call : ∀ c, CallInv s (s.calls c)

theorem Inv.initial : Inv initial :=
  ⟨by decide, by simp [Interleaving.initial], by decide, by simp [Interleaving.initial],
    fun _ => trivial⟩

/-- While a call has the mutex or nobody has, the worker thread is not between its lock and
unlock. -/
theorem Inv.not_holdsMutex {s : State} (h : Inv s) (hm : s.gcMutex ≠ some .worker) :
    s.pc.holdsMutex = false := by
  by_contra hpc
  exact hm (h.worker_mutex.2 (by simpa using hpc))

theorem Inv.not_collecting {s : State} {c : ℕ} (h : Inv s) (hm : s.gcMutex ≠ some (.call c)) :
    ¬∃ call, s.calls c = .collecting call :=
  fun hc => hm ((h.call_mutex c).2 hc)

/-- No allocation is being processed while the flag is raised. -/
theorem Inv.processed_of_flagRaised {s : State} (h : Inv s) (hflag : s.FlagRaised) :
    s.processed = s.thread.workItems.taken := by
  unfold State.processed
  cases hpc : s.pc with
  | process item =>
    rcases hflag with hflag | hflag
    · rw [h.flag_cleared (by rw [hpc]; rfl)] at hflag
      cases hflag
    · rw [hpc] at hflag
      cases hflag
  | _ => rfl

/-- If the flag is raised and no allocation is pending, everything enqueued so far is ready. -/
theorem Inv.ready_of_flagRaised {s : State} (h : Inv s) (hflag : s.FlagRaised)
    (hnone : ¬s.AllocPending) : s.Ready s.thread.workItems.enqueued.length := by
  intro i item hi hin hitem
  rw [h.processed_of_flagRaised hflag] at hi
  by_contra halloc
  refine hnone ⟨item, ?_, by simpa using halloc⟩
  refine List.mem_iff_getElem?.2 ⟨i - s.thread.workItems.taken, ?_⟩
  rw [Fifo.pending, List.getElem?_drop, ← hitem]
  congr 1
  omega

/-- A state with more items enqueued and processed has no less ready. -/
theorem State.Ready.mono {s t : State} {n : ℕ} (h : s.Ready n)
    (hn : n ≤ s.thread.workItems.enqueued.length)
    (hq : s.thread.workItems.enqueued <+: t.thread.workItems.enqueued)
    (hp : s.processed ≤ t.processed) : t.Ready n := by
  intro i item hi hin hitem
  refine h i item (hp.trans hi) hin ?_
  rw [← hitem]
  obtain ⟨l, hl⟩ := hq
  rw [← hl, List.getElem?_append_left (by omega)]

/-- What is known about a call that does not move itself stays true. -/
theorem CallInv.mono {s t : State} {p : CallPc} (h : CallInv s p)
    (hq : s.thread.workItems.enqueued <+: t.thread.workItems.enqueued)
    (hp : s.processed ≤ t.processed)
    (hflag : ∀ n, n ≤ s.thread.workItems.enqueued.length → ¬s.FlagRaised →
      ¬t.FlagRaised ∨ t.Ready n) : CallInv t p := by
  cases p with
  | notStarted => trivial
  | returned => trivial
  | waiting call =>
    refine ⟨h.1.trans hq.length_le, ?_⟩
    rcases h.2 with hflag' | hready
    · exact hflag _ h.1 hflag'
    · exact Or.inr (hready.mono h.1 hq hp)
  | entering call => exact ⟨h.1.trans hq.length_le, h.2.mono h.1 hq hp⟩
  | collecting call => exact ⟨h.1.trans hq.length_le, h.2.mono h.1 hq hp⟩

/-- One step of the worker thread. -/
theorem Inv.workerStep {s t : State} (h : Inv s) (hstep : workerStep s = some t) : Inv t := by
  -- the worker moves no call, so it is enough to look at queue and flag
  have hcall : ∀ t : State, t.calls = s.calls →
      s.thread.workItems.enqueued <+: t.thread.workItems.enqueued → s.processed ≤ t.processed →
      (∀ n, n ≤ s.thread.workItems.enqueued.length → ¬s.FlagRaised → ¬t.FlagRaised ∨ t.Ready n) →
      ∀ c, CallInv t (t.calls c) := by
    intro t hcalls hq hp hflag c
    rw [hcalls]
    exact (h.call c).mono hq hp hflag
  have hfree : s.pc.holdsMutex = false → s.gcMutex ≠ some .worker := by
    intro hpc hm
    rw [h.worker_mutex.1 hm] at hpc
    cases hpc
  cases workerMove hstep with
  | exit hpc hstop =>
    refine ⟨?_, h.call_mutex, by simp [WorkerPc.flagCleared], by simp, ?_⟩
    · simpa [WorkerPc.holdsMutex] using hfree (by rw [hpc]; rfl)
    · refine hcall _ rfl List.prefix_rfl ?_ fun n _ hn => Or.inl ?_
      · simpa [State.processed, hpc, WorkerThread.cleanUp, Fifo.discard] using
          s.thread.workItems.taken_le
      · simpa [State.FlagRaised, hpc, WorkerThread.cleanUp] using hn
  | iterate hpc hstop =>
    refine ⟨?_, h.call_mutex, by simp [WorkerPc.flagCleared], by simp, ?_⟩
    · simpa [WorkerPc.holdsMutex] using hfree (by rw [hpc]; rfl)
    · refine hcall _ rfl List.prefix_rfl ?_ fun n _ hn => Or.inl ?_
      · simp [State.processed, hpc]
      · simpa [State.FlagRaised, hpc] using hn
  | clearFlag hpc =>
    refine ⟨?_, h.call_mutex, fun _ => rfl, by simp, ?_⟩
    · simpa [WorkerPc.holdsMutex] using hfree (by rw [hpc]; rfl)
    · refine hcall _ rfl List.prefix_rfl ?_ fun n _ hn => Or.inl ?_
      · simp [State.processed, hpc]
      · simp [State.FlagRaised]
  | takeMutex hpc hm =>
    refine ⟨by simp [WorkerPc.holdsMutex], fun c => ?_, fun _ => h.flag_cleared (by rw [hpc]; rfl),
      by simp, ?_⟩
    · simp [← h.call_mutex, hm]
    · refine hcall _ rfl List.prefix_rfl ?_ fun n _ hn => Or.inl ?_
      · simp [State.processed, hpc]
      · simpa [State.FlagRaised, hpc] using hn
  | dequeueFails hpc hnil =>
    have hmutex := h.worker_mutex.2 (by rw [hpc]; rfl)
    have hflag := h.flag_cleared (by rw [hpc]; rfl)
    refine ⟨by simpa [WorkerPc.holdsMutex] using hmutex, h.call_mutex, fun _ => hflag, by simp, ?_⟩
    -- the dequeue has failed, so everything enqueued so far is processed
    refine hcall _ rfl List.prefix_rfl (by simp [State.processed, hpc]) fun n hn _ => Or.inr ?_
    have hlen := List.drop_eq_nil_iff.1 hnil
    intro i item hi hin hitem
    simp only [State.processed] at hi
    omega
  | dequeue item q hpc hq =>
    have hmutex := h.worker_mutex.2 (by rw [hpc]; rfl)
    have hflag := h.flag_cleared (by rw [hpc]; rfl)
    obtain ⟨-, henq, htaken⟩ := Fifo.tryDequeue_eq_some hq
    refine ⟨by simpa [WorkerPc.holdsMutex] using hmutex, h.call_mutex, fun _ => hflag,
      fun _ _ => by simp [htaken], ?_⟩
    refine hcall _ rfl (by simp [henq]) ?_ fun n _ hn => Or.inl ?_
    · simp [State.processed, hpc, htaken]
    · simpa [State.FlagRaised, hpc] using hn
  | setFlag hpc =>
    have hmutex := h.worker_mutex.2 (by rw [hpc]; rfl)
    refine ⟨by simpa [WorkerPc.holdsMutex] using hmutex, h.call_mutex,
      by simp [WorkerPc.flagCleared], by simp, ?_⟩
    refine hcall _ rfl List.prefix_rfl (by simp [State.processed, hpc]) fun n _ hn => ?_
    -- the flag counts as raised since the dequeue has failed
    exact absurd (Or.inr hpc) hn
  | process item hpc =>
    have hmutex := h.worker_mutex.2 (by rw [hpc]; rfl)
    obtain ⟨hitems, hempty, -⟩ := WorkerThread.processItem_frame s.thread item
    refine ⟨by simpa [WorkerPc.holdsMutex] using hmutex, h.call_mutex,
      by simp [WorkerPc.flagCleared], by simp, ?_⟩
    refine hcall _ rfl (by simp [hitems]) ?_ fun n _ hn => Or.inl ?_
    · simp [State.processed, hpc, hitems]
    · simpa [State.FlagRaised, hpc, hempty] using hn
  | releaseMutex hpc =>
    have hmutex := h.worker_mutex.2 (by rw [hpc]; rfl)
    refine ⟨by simp [WorkerPc.holdsMutex], fun c => ?_, by simp [WorkerPc.flagCleared], by simp, ?_⟩
    · simp [← h.call_mutex, hmutex]
    · refine hcall _ rfl List.prefix_rfl (by simp [State.processed, hpc]) fun n _ hn => Or.inl ?_
      simpa [State.FlagRaised, hpc] using hn

/-- A step of a call moves this call only and leaves the others what they know. -/
theorem Inv.setCall {s : State} {c : ℕ} {p : CallPc} (h : Inv s) (hp : CallInv s p)
    (hold : ∀ call, s.calls c ≠ .collecting call) (hnew : ∀ call, p ≠ .collecting call) :
    Inv (setCall s c p) := by
  refine ⟨h.worker_mutex, fun d => ?_, h.flag_cleared, h.taken_pos, fun d => ?_⟩
  · rw [show (Interleaving.setCall s c p).gcMutex = s.gcMutex from rfl, h.call_mutex]
    by_cases hd : d = c
    · subst hd
      simp [Interleaving.setCall, hold, hnew]
    · simp [Interleaving.setCall, Function.update_of_ne hd]
  · by_cases hd : d = c
    · subst hd
      simp only [Interleaving.setCall, Function.update_self]
      exact hp
    · simp only [Interleaving.setCall, Function.update_of_ne hd]
      exact h.call d

/-- A call locks the mutex. -/
theorem Inv.takeMutex {s : State} {c : ℕ} {call : GcCall} (h : Inv s)
    (hc : s.calls c = .entering call) (hm : s.gcMutex = none) :
    Inv (Interleaving.setCall { s with gcMutex := some (.call c) } c (.collecting call)) := by
  have hworker : s.pc.holdsMutex = false := h.not_holdsMutex (by simp [hm])
  refine ⟨by simp [Interleaving.setCall, hworker], fun d => ?_, h.flag_cleared, h.taken_pos,
    fun d => ?_⟩
  · by_cases hd : d = c
    · subst hd
      simp [Interleaving.setCall]
    · have hnone := h.not_collecting (c := d) (by simp [hm])
      simpa [Interleaving.setCall, Function.update_of_ne hd, Ne.symm hd] using hnone
  · by_cases hd : d = c
    · subst hd
      have hcall : CallInv s (s.calls d) := h.call d
      rw [hc] at hcall
      simp only [Interleaving.setCall, Function.update_self]
      exact hcall
    · simp only [Interleaving.setCall, Function.update_of_ne hd]
      exact h.call d

/-- A call does its collection, unlocks the mutex and returns. -/
theorem Inv.collect {s : State} {c : ℕ} {call : GcCall} (mem : Memory) (h : Inv s)
    (hc : s.calls c = .collecting call) :
    Inv (Interleaving.setCall { s with
      thread := s.thread.doGcSync call.frame call.onlyUpdateParents mem
      gcMutex := none } c .returned) := by
  have hm : s.gcMutex = some (.call c) := (h.call_mutex c).2 ⟨call, hc⟩
  have hworker : s.pc.holdsMutex = false := h.not_holdsMutex (by simp [hm])
  -- the collection enqueues frees behind everything else and leaves the flag alone
  obtain ⟨hq, htaken⟩ := s.thread.doGcSync_workItems call.frame call.onlyUpdateParents mem
  have hempty := s.thread.doGcSync_workItemsEmpty call.frame call.onlyUpdateParents mem
  refine ⟨by simp [Interleaving.setCall, hworker], fun d => ?_,
    fun hpc => hempty.trans (h.flag_cleared hpc),
    fun item hpc => (h.taken_pos item hpc).trans_eq htaken.symm, fun d => ?_⟩
  · by_cases hd : d = c
    · subst hd
      simp [Interleaving.setCall]
    · have hnone := h.not_collecting (c := d) (by simpa [hm] using Ne.symm hd)
      simpa [Interleaving.setCall, Function.update_of_ne hd] using hnone
  · by_cases hd : d = c
    · subst hd
      simp [Interleaving.setCall, CallInv]
    · simp only [Interleaving.setCall, Function.update_of_ne hd]
      refine (h.call d).mono hq ?_ fun n _ hn => Or.inl ?_
      · simp only [State.processed, htaken]
        exact le_rfl
      · simpa only [State.FlagRaised, hempty] using hn

/-- **Every step keeps the invariant, if calls start only as they should.** -/
theorem Inv.step {s t : State} {a : Action} (h : Inv s) (hclean : StartsCleanly s a)
    (hstep : step s a = some t) : Inv t := by
  cases move hstep with
  | worker => exact h.workerStep hstep
  | enqueue frame klass obj size backtrace =>
    refine ⟨h.worker_mutex, h.call_mutex, h.flag_cleared, h.taken_pos, fun c => ?_⟩
    exact (h.call c).mono (List.prefix_append _ _) (Nat.le_refl s.processed) fun n _ hn => Or.inl hn
  | startGc c frame only hc =>
    refine h.setCall ⟨le_rfl, ?_⟩ (by simp [hc]) (by simp)
    by_cases hflag : s.FlagRaised
    · -- the flag may be read at once, so nothing may be left of what is enqueued before the call
      exact Or.inr (h.ready_of_flagRaised hflag fun hp => hclean ⟨hp, hflag⟩)
    · exact Or.inl hflag
  | seeFlag c call hc hflag =>
    have hcall : CallInv s (s.calls c) := h.call c
    rw [hc] at hcall
    refine h.setCall ⟨hcall.1, ?_⟩ (by simp [hc]) (by simp)
    exact hcall.2.resolve_left fun hn => hn (Or.inl hflag)
  | wait => exact h
  | takeMutex c call hc hm => exact h.takeMutex hc hm
  | collect c call mem hc => exact h.collect mem hc
  | stop =>
    refine ⟨h.worker_mutex, h.call_mutex, h.flag_cleared, h.taken_pos, fun c => ?_⟩
    exact (h.call c).mono List.prefix_rfl (Nat.le_refl s.processed) fun n _ hn => Or.inl hn

/-- **No collection overtakes an earlier allocation**, if every call starts while no allocation is
pending or the flag is down and will stay down until a later dequeue fails. -/
theorem processed_of_collecting {l : List Action} {s : State}
    (hrun : Run.run step initial l = some s) (hclean : Run.Along step StartsCleanly initial l)
    {c : ℕ} {call : GcCall} (hc : s.calls c = .collecting call) {i : ℕ} {item : WorkItem}
    (hi : i < call.enqueuedBefore) (hitem : s.thread.workItems.enqueued[i]? = some item)
    (halloc : item.isAlloc) : i < s.processed := by
  have h : Inv s :=
    Run.run_invariant (fun _ _ _ h hP hstep => h.step hP hstep) Inv.initial hclean hrun
  have hcall := h.call c
  rw [hc] at hcall
  by_contra hle
  rw [hcall.2 i item (by omega) hi hitem] at halloc
  cases halloc

/-- The worker thread clears the flag, then an allocation is enqueued and a collection starts. -/
def patientRun : List Action :=
  [.worker, .worker, .enqueue 1 ⟨none, .empty⟩ 16 8 [], .startGc 0 1 false] ++
    List.replicate 10 .worker ++ [.readFlag 0, .takeMutex 0]

theorem processed_of_collecting_patientRun :
    ∃ s, Run.run step initial patientRun = some s ∧ 0 < s.processed :=
  ⟨_, rfl, @processed_of_collecting patientRun _ rfl (by decide) 0 ⟨1, false, 1⟩ rfl 0 _ (by decide)
    rfl rfl⟩

/-- The worker thread finds the queue empty, then an allocation is enqueued and a collection starts
before the worker thread comes back to it. -/
theorem collection_overtakes_allocation :
    ¬ ∀ (l : List Action) (s : State), Run.run step initial l = some s →
      ∀ (c : ℕ) (call : GcCall), s.calls c = .collecting call →
      ∀ (i : ℕ) (item : WorkItem), i < call.enqueuedBefore →
        s.thread.workItems.enqueued[i]? = some item → item.isAlloc → i < s.processed := by
  intro h
  have h' := h (List.replicate 6 .worker ++ [.enqueue 1 ⟨none, .empty⟩ 16 8 [], .startGc 0 1 false,
    .readFlag 0, .takeMutex 0]) _ rfl 0 ⟨1, false, 1⟩ (by decide) 0 _ (by decide) rfl rfl
  revert h'
  decide

/-- The call `c` has started and has seen the flag. -/
def State.entered (s : State) (c : ℕ) (frame : UInt64) (only : Bool) : State :=
  setCall s c (.entering ⟨frame, only, s.thread.workItems.enqueued.length⟩)

/-- A call that is about to take the free mutex, with the worker thread out of the way, overtakes an
allocation that was pending when it started. -/
theorem overtakes_of_entering {s t : State} {c : ℕ} {frame : UInt64} {only : Bool}
    (hpending : s.AllocPending) {l : List Action}
    (hl : Run.run step s (.startGc c frame only :: l) = some t)
    (ht : t.calls c = .entering ⟨frame, only, s.thread.workItems.enqueued.length⟩)
    (hm : t.gcMutex = none) (hpc : t.pc.flagCleared = false)
    (htaken : t.thread.workItems.taken = s.thread.workItems.taken)
    (hq : s.thread.workItems.enqueued <+: t.thread.workItems.enqueued) :
    ∃ l t call, Run.run step s (.startGc c frame only :: l) = some t ∧
      t.calls c = .collecting call ∧ ∃ i item, i < call.enqueuedBefore ∧
        t.thread.workItems.enqueued[i]? = some item ∧ item.isAlloc ∧ t.processed ≤ i := by
  obtain ⟨item, hitem, halloc⟩ := hpending
  obtain ⟨j, hj⟩ := List.mem_iff_getElem?.1 hitem
  rw [Fifo.pending, List.getElem?_drop] at hj
  have hlen := (List.getElem?_eq_some_iff.1 hj).1
  refine ⟨l ++ [.takeMutex c], setCall { t with gcMutex := some (.call c) } c (.collecting _),
    ⟨frame, only, s.thread.workItems.enqueued.length⟩, ?_, Function.update_self .., _, item, hlen,
    ?_, halloc, ?_⟩
  · rw [← List.cons_append, Run.run_append, hl]
    simp [step, ht, hm]
  · obtain ⟨r, hr⟩ := hq
    rw [← hj, ← List.getElem?_append_left hlen, hr]
    rfl
  · have hprocessed : t.processed = t.thread.workItems.taken := by
      unfold State.processed
      cases hp : t.pc <;> simp [hp, WorkerPc.flagCleared] at hpc ⊢
    show t.processed ≤ _
    rw [hprocessed, htaken]
    omega

/-- **The condition is exact**: a call that starts while an allocation is pending and the flag is
raised can begin to collect before that allocation is processed. -/
theorem overtaking_possible {s : State} (h : Inv s) {c : ℕ} (hc : s.calls c = .notStarted)
    (hpending : s.AllocPending) (hflag : s.FlagRaised) (frame : UInt64) (only : Bool) :
    ∃ l t call, Run.run step s (.startGc c frame only :: l) = some t ∧
      t.calls c = .collecting call ∧ ∃ i item, i < call.enqueuedBefore ∧
        t.thread.workItems.enqueued[i]? = some item ∧ item.isAlloc ∧ t.processed ≤ i := by
  have hcleared : s.thread.workItemsEmpty = true → s.pc.flagCleared = false := by
    intro hempty
    by_contra hpc
    rw [h.flag_cleared (by simpa using hpc)] at hempty
    cases hempty
  have hfree : s.gcMutex ≠ some .worker → s.thread.workItemsEmpty = true := by
    intro hm
    refine hflag.resolve_right fun hpc => hm (h.worker_mutex.2 ?_)
    rw [hpc]
    rfl
  -- whoever holds the mutex gets out of the way first
  cases hm : s.gcMutex with
  | none =>
    have hempty : s.thread.workItemsEmpty = true := hfree (by simp [hm])
    refine @overtakes_of_entering s (s.entered c frame only) c frame only hpending [.readFlag c] ?_
      (by simp [State.entered, setCall]) hm (hcleared hempty) rfl List.prefix_rfl
    simp [step, hc, State.entered, setCall, hempty]
  | some owner =>
    cases owner with
    | worker =>
      have hpc := h.worker_mutex.1 hm
      rcases hflag with hempty | hset
      · have hrelease : s.pc = .releaseMutex := by
          have := hcleared hempty
          cases hp : s.pc <;> simp [hp, WorkerPc.holdsMutex, WorkerPc.flagCleared] at hpc this ⊢
        refine @overtakes_of_entering s
          { s.entered c frame only with gcMutex := none, pc := .loopHead } c frame only hpending
          [.readFlag c, .worker] ?_ (by simp [State.entered, setCall]) rfl rfl rfl List.prefix_rfl
        simp [step, hc, State.entered, setCall, hempty, workerStep, hrelease]
      · refine @overtakes_of_entering s
          { s.entered c frame only with
            thread := { s.thread with workItemsEmpty := true }, gcMutex := none, pc := .loopHead }
          c frame only hpending [.worker, .readFlag c, .worker] ?_
          (by simp [State.entered, setCall]) rfl rfl rfl List.prefix_rfl
        simp [step, hc, State.entered, setCall, workerStep, hset]
    | call d =>
      obtain ⟨call, hd⟩ := (h.call_mutex d).1 hm
      have hdc : d ≠ c := by
        rintro rfl
        rw [hc] at hd
        cases hd
      have hempty : s.thread.workItemsEmpty = true := hfree (by simp [hm])
      obtain ⟨hq, htaken⟩ := s.thread.doGcSync_workItems call.frame call.onlyUpdateParents
        (fun _ => none)
      refine @overtakes_of_entering s
        (setCall { s.entered c frame only with
          thread := s.thread.doGcSync call.frame call.onlyUpdateParents fun _ => none
          gcMutex := none } d .returned)
        c frame only hpending [.readFlag c, .collect d fun _ => none] ?_ ?_ rfl (hcleared hempty)
        htaken hq
      · simp [step, hc, State.entered, setCall, hempty, Function.update_of_ne hdc, hd]
      · simp [State.entered, setCall, Function.update_of_ne (Ne.symm hdc)]

end Interleaving

end Owlcat
