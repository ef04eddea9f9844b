import OwlcatMonoProfiler.Server.Interleaving

/-!
# The frames of the queue

The callbacks `on_frame`, `on_allocation` and `on_gc` of `server/src/mono_profiler.cpp`, taken apart
into the steps other threads can come between.  Allocations come one after the other because of
`m_add_alloc_mutex`; nothing orders them against collections and frames.

* `CallbackPc`, `State`: where each callback is; every callback has a number of its own;
* `Action`, `step`: one step of one thread; the worker thread is the one of `Interleaving`;
* `InOrder`: nothing is enqueued while a callback is busy that has read an older frame number;
* `frames_nondecreasing`: then the frames of the items and of the events never go backwards;
* `inversion_possible`: otherwise they go backwards as soon as that callback enqueues its item.
-/

namespace Owlcat

/-- The frame of an event. -/
def Report.frame? : Report → Option UInt64
  | .alloc frame .. => some frame
  | .free frame .. => some frame
  | .references .. | .paused .. | .resumed .. => none

namespace Frames

/-- The next step of a callback.  `allocLocked` has `m_add_alloc_mutex`, `allocRead` has read the
frame index too and `allocEnqueued` has only to unlock.  `gcWaiting` waits for the flag, `gcLocking`
for `m_gc_mutex`, `gcMarking` is at the beginning of the collection and `gcSweeping` has a list of
unmarked objects left to enqueue. -/
inductive CallbackPc
  | notStarted
  | allocLocked
  | allocRead (frame : UInt64)
  | allocEnqueued
  | gcWaiting (frame : UInt64)
  | gcLocking (frame : UInt64)
  | gcMarking (frame : UInt64)
  | gcSweeping (frame : UInt64) (unmarked : List (UInt64 × UInt32))
  | returned
  deriving DecidableEq

/-- The frame number of a callback that may still enqueue something. -/
def CallbackPc.frame? : CallbackPc → Option UInt64
  | .allocRead frame | .gcWaiting frame | .gcLocking frame | .gcMarking frame => some frame
  | .gcSweeping _ [] => none
  | .gcSweeping frame (_ :: _) => some frame
  | .notStarted | .allocLocked | .allocEnqueued | .returned => none

/-- The data of worker thread and profiler, the positions of all threads, and the mutexes. -/
structure State where
  thread : WorkerThread := {}
  pc : Interleaving.WorkerPc := .loopHead
  gcMutex : Option Interleaving.Owner := none
  frameIndex : UInt64 := 0
  addAllocMutex : Option ℕ := none
  callbacks : ℕ → CallbackPc := fun _ => .notStarted

/-- One step of one thread. -/
inductive Action
  | worker
  | onFrame
  | lockAlloc (c : ℕ)
  | readFrame (c : ℕ)
  | enqueueAlloc (c : ℕ) (klass : MonoClass) (obj : UInt64) (size : UInt32)
      (backtrace : List MonoMethod)
  | unlockAlloc (c : ℕ)
  | startGc (c : ℕ)
  | readFlag (c : ℕ)
  | lockGc (c : ℕ)
  | mark (c : ℕ) (mem : Memory)
  | sweep (c : ℕ)

/-- What the worker thread sees. -/
def State.loop (s : State) : Interleaving.State :=
  { thread := s.thread, pc := s.pc, gcMutex := s.gcMutex }

/-- The next step of the worker thread. -/
def workerStep (s : State) : Option State :=
  (Interleaving.workerStep s.loop).map fun t =>
    { s with thread := t.thread, pc := t.pc, gcMutex := t.gcMutex }

/-- Move one callback. -/
def setCallback (s : State) (c : ℕ) (p : CallbackPc) : State :=
  { s with callbacks := Function.update s.callbacks c p }

@[simp] theorem callbacks_setCallback (s : State) (c : ℕ) (p : CallbackPc) :
    (setCallback s c p).callbacks = Function.update s.callbacks c p := rfl

/-- Enqueue an item. -/
def enqueue (s : State) (item : WorkItem) : State :=
  { s with thread := { s.thread with workItems := s.thread.workItems.enqueue item } }

@[simp] theorem callbacks_enqueue (s : State) (item : WorkItem) :
    (enqueue s item).callbacks = s.callbacks := rfl

/-- The unmarked objects, in the order of the map. -/
def unmarked (m : Dict UInt64 AllocInfo) : List (UInt64 × UInt32) :=
  (m.entries.filter fun e => !e.2.tmpAllocated).map fun e => (e.1, e.2.size)

/-- Mark, and forget what is not marked.  No other thread looks at the map before the mutex is
released, so all entries can be erased at once; the items are enqueued one by one. -/
def markAndForget (s : State) (mem : Memory) : State × List (UInt64 × UInt32) :=
  let m := (WorkerThread.mark mem s.thread.roots s.thread.allocations).1.1
  ({ s with thread := { s.thread with
      allocations := Dict.filterEntries (fun _ alloc => alloc.tmpAllocated) m } }, unmarked m)

/-- The state after a step. -/
def step (s : State) : Action → Option State
  | .worker => workerStep s
  | .onFrame => some { s with frameIndex := s.frameIndex + 1 }
  | .lockAlloc c =>
    match s.callbacks c with
    | .notStarted =>
      if s.addAllocMutex = none then
        some (setCallback { s with addAllocMutex := some c } c .allocLocked)
      else none
    | _ => none
  | .readFrame c =>
    match s.callbacks c with
    | .allocLocked => some (setCallback s c (.allocRead s.frameIndex))
    | _ => none
  | .enqueueAlloc c klass obj size backtrace =>
    match s.callbacks c with
    | .allocRead frame =>
      some (setCallback (enqueue s (.alloc frame klass obj size backtrace)) c .allocEnqueued)
    | _ => none
  | .unlockAlloc c =>
    match s.callbacks c with
    | .allocEnqueued => some (setCallback { s with addAllocMutex := none } c .returned)
    | _ => none
  | .startGc c =>
    match s.callbacks c with
    | .notStarted => some (setCallback s c (.gcWaiting s.frameIndex))
    | _ => none
  | .readFlag c =>
    match s.callbacks c with
    | .gcWaiting frame =>
      some (if s.thread.workItemsEmpty then setCallback s c (.gcLocking frame) else s)
    | _ => none
  | .lockGc c =>
    match s.callbacks c with
    | .gcLocking frame =>
      if s.gcMutex = none then
        some (setCallback { s with gcMutex := some (.call c) } c (.gcMarking frame))
      else none
    | _ => none
  | .mark c mem =>
    match s.callbacks c with
    | .gcMarking frame =>
      let r := markAndForget s mem
      some (setCallback r.1 c (.gcSweeping frame r.2))
    | _ => none
  | .sweep c =>
    match s.callbacks c with
    | .gcSweeping frame ((addr, size) :: rest) =>
      some (setCallback (enqueue s (.free frame addr size)) c (.gcSweeping frame rest))
    | .gcSweeping frame [] =>
      some (setCallback
        { s with thread := { s.thread with lastGcFrame := frame }, gcMutex := none } c .returned)
    | _ => none

/-! ### Frames of items and events -/

/-- The frames of all items that were enqueued. -/
def State.enqueued (s : State) : List UInt64 := s.thread.workItems.enqueued.map WorkItem.frame

/-- The frames of the events that were reported. -/
def State.reported (s : State) : List UInt64 := s.thread.eventsSink.filterMap Report.frame?

/-- The frames of the item that is being processed and of the items behind it. -/
def State.waiting (s : State) : List UInt64 := s.loop.left.map WorkItem.frame

/-- No other callback that may still enqueue something has an older frame number. -/
def NoOlder (s : State) (c : ℕ) : Prop :=
  ∀ frame, (s.callbacks c).frame? = some frame →
    ∀ c' frame', (s.callbacks c').frame? = some frame' → frame ≤ frame'

theorem noOlder_of_alone {s : State} {c : ℕ}
    (h : ∀ c', c' ≠ c → (s.callbacks c').frame? = none) : NoOlder s c := by
  intro frame hframe c' frame' hframe'
  by_cases hc : c' = c
  · subst hc
    rw [Option.some.inj (hframe.symm.trans hframe')]
    exact UInt64.le_refl _
  · simp [h c' hc] at hframe'

/-- The condition under which the callbacks go on. -/
def InOrder (s : State) : Action → Prop
  | .onFrame => s.frameIndex + 1 ≠ 0
  | .enqueueAlloc c .. => NoOlder s c
  | .sweep c => NoOlder s c
  | _ => True

/-- What processing an item adds to the frames of the events. -/
theorem reported_processItem (w : WorkerThread) (item : WorkItem) :
    ∃ n, (w.processItem item).eventsSink.filterMap Report.frame? =
      w.eventsSink.filterMap Report.frame? ++ List.replicate n item.frame := by
  cases item with
  | free frame obj size =>
    refine ⟨1, ?_⟩
    rw [WorkerThread.processItem, WorkerThread.reportFree, WorkerThread.report,
      List.filterMap_append]
    rfl
  | alloc frame klass obj size backtrace =>
    simp only [WorkerThread.processItem]
    cases WorkerThread.callstack backtrace with
    | none => exact ⟨0, (List.append_nil _).symm⟩
    | some str =>
      unfold WorkerThread.enterAllocation
      cases w.allocations.lookup obj with
      | none =>
        refine ⟨1, ?_⟩
        simp only [WorkerThread.report, List.filterMap_append]
        rfl
      | some alloc =>
        refine ⟨2, ?_⟩
        simp only [WorkerThread.report, WorkerThread.reportFree, List.filterMap_append,
          List.append_assoc]
        rfl

/-- The worker thread keeps the order of what it was given: it drops items, or it reports the events
of the one it is processing. -/
theorem workerStep_stream {s t : State} (hstep : workerStep s = some t) :
    t.enqueued = s.enqueued ∧ t.frameIndex = s.frameIndex ∧ t.callbacks = s.callbacks ∧
      (t.reported = s.reported ∧ t.waiting.Sublist s.waiting ∨
        ∃ frame n, s.waiting = frame :: t.waiting ∧
          t.reported = s.reported ++ List.replicate n frame) := by
  obtain ⟨u, hu, rfl⟩ := Option.map_eq_some_iff.1 hstep
  obtain ⟨henqueued, hleft⟩ := Interleaving.workerStep_left hu
  refine ⟨congrArg (List.map WorkItem.frame) henqueued, rfl, rfl, ?_⟩
  rcases hleft with ⟨hsub, hsink, -⟩ | ⟨item, -, hitem, hthread⟩
  · exact Or.inl ⟨congrArg (List.filterMap Report.frame?) hsink, hsub.map WorkItem.frame⟩
  · obtain ⟨n, hn⟩ := reported_processItem s.thread item
    refine Or.inr ⟨item.frame, n, congrArg (List.map WorkItem.frame) hitem, ?_⟩
    change u.thread.eventsSink.filterMap Report.frame? = _
    rw [hthread]
    exact hn

theorem enqueued_enqueue (s : State) (item : WorkItem) :
    (enqueue s item).enqueued = s.enqueued ++ [item.frame] := by
  simp [State.enqueued, enqueue]

theorem waiting_enqueue (s : State) (item : WorkItem) :
    (enqueue s item).waiting = s.waiting ++ [item.frame] := by
  unfold State.waiting State.loop enqueue Interleaving.State.left
  cases s.pc <;> simp

/-- The frame index grows unless it overflows. -/
theorem le_add_one {frame : UInt64} (h : frame + 1 ≠ 0) : frame ≤ frame + 1 := by
  rw [UInt64.le_iff_toNat_le, UInt64.toNat_add]
  have hne : (frame.toNat + 1) % 2 ^ 64 ≠ 0 := fun h0 => h (UInt64.toNat_inj.1 h0)
  have hlt := frame.toNat_lt
  change frame.toNat ≤ (frame.toNat + 1) % 2 ^ 64
  omega

/-! ### The invariant -/

/-- **The invariant of the frames.** -/
structure Inv (s : State) : Prop where
  enqueued_sorted : s.enqueued.Pairwise (· ≤ ·)
  stream_sorted : (s.reported ++ s.waiting).Pairwise (· ≤ ·)
  stream_enqueued : ∀ frame ∈ s.reported ++ s.waiting, frame ∈ s.enqueued
  enqueued_le : ∀ frame ∈ s.enqueued, frame ≤ s.frameIndex
  callback : ∀ c frame, (s.callbacks c).frame? = some frame →
    frame ≤ s.frameIndex ∧ ∀ frame' ∈ s.enqueued, frame' ≤ frame

theorem Inv.initial : Inv {} :=
  ⟨List.Pairwise.nil, List.Pairwise.nil, fun _ h => absurd h List.not_mem_nil,
    fun _ h => absurd h List.not_mem_nil, by simp [CallbackPc.frame?]⟩

/-- A change that touches neither the queue and the events nor the frame numbers. -/
theorem Inv.congr {s t : State} (h : Inv s) (hqueue : t.enqueued = s.enqueued)
    (hreported : t.reported = s.reported) (hwaiting : t.waiting = s.waiting)
    (hindex : t.frameIndex = s.frameIndex) (hcallbacks : t.callbacks = s.callbacks) : Inv t := by
  obtain ⟨h1, h2, h3, h4, h5⟩ := h
  rw [← hqueue] at h1 h3 h4 h5
  rw [← hreported, ← hwaiting] at h2 h3
  rw [← hindex] at h4 h5
  rw [← hcallbacks] at h5
  exact ⟨h1, h2, h3, h4, h5⟩

/-- A callback moves: it keeps its frame number, forgets it, or reads the current one. -/
theorem Inv.setCallback {s : State} {c : ℕ} {p : CallbackPc} (h : Inv s)
    (hp : ∀ frame, p.frame? = some frame →
      (s.callbacks c).frame? = some frame ∨ frame = s.frameIndex) :
    Inv (setCallback s c p) := by
  refine ⟨h.enqueued_sorted, h.stream_sorted, h.stream_enqueued, h.enqueued_le,
    fun d frame hd => ?_⟩
  by_cases hdc : d = c
  · subst hdc
    rw [callbacks_setCallback, Function.update_self] at hd
    rcases hp frame hd with hold | rfl
    · exact h.callback d frame hold
    · exact ⟨UInt64.le_refl _, h.enqueued_le⟩
  · rw [callbacks_setCallback, Function.update_of_ne hdc] at hd
    exact h.callback d frame hd

/-- A callback enqueues an item while none is busy with an older frame number. -/
theorem Inv.enqueue {s : State} {c : ℕ} (h : Inv s) (item : WorkItem)
    (hc : (s.callbacks c).frame? = some item.frame) (hold : NoOlder s c) :
    Inv (enqueue s item) := by
  obtain ⟨hle, hlast⟩ := h.callback c _ hc
  refine ⟨?_, ?_, ?_, ?_, fun d frame hd => ⟨(h.callback d frame hd).1, ?_⟩⟩
  · rw [enqueued_enqueue, List.pairwise_append]
    exact ⟨h.enqueued_sorted, List.pairwise_singleton _ _, by simpa using hlast⟩
  · rw [waiting_enqueue, ← List.append_assoc, List.pairwise_append]
    refine ⟨h.stream_sorted, List.pairwise_singleton _ _, fun frame hframe => ?_⟩
    simpa using hlast frame (h.stream_enqueued frame hframe)
  · intro frame hframe
    rw [waiting_enqueue, ← List.append_assoc, List.mem_append] at hframe
    rw [enqueued_enqueue, List.mem_append]
    exact hframe.imp_left (h.stream_enqueued frame)
  · intro frame hframe
    rw [enqueued_enqueue, List.mem_append, List.mem_singleton] at hframe
    rcases hframe with hframe | rfl
    · exact h.enqueued_le frame hframe
    · exact hle
  · intro frame' hframe'
    rw [enqueued_enqueue, List.mem_append, List.mem_singleton] at hframe'
    rcases hframe' with hframe' | rfl
    · exact (h.callback d frame hd).2 frame' hframe'
    · exact hold _ hc d frame hd

theorem Inv.workerStep {s t : State} (h : Inv s) (hstep : workerStep s = some t) : Inv t := by
  obtain ⟨henqueued, hindex, hcallbacks, hstream⟩ := workerStep_stream hstep
  have hsorted : (t.reported ++ t.waiting).Pairwise (· ≤ ·) ∧
      ∀ frame ∈ t.reported ++ t.waiting, frame ∈ s.enqueued := by
    rcases hstream with ⟨hreported, hwaiting⟩ | ⟨frame, n, hwaiting, hreported⟩
    · -- dropping items does not change the order of the others
      have hsub : (t.reported ++ t.waiting).Sublist (s.reported ++ s.waiting) := by
        rw [hreported]
        exact hwaiting.append_left _
      exact ⟨h.stream_sorted.sublist hsub, fun frame hf => h.stream_enqueued frame (hsub.subset hf)⟩
    · -- all events of an item carry its frame number, which is the first of the waiting ones
      have hs := h.stream_sorted
      have hmem := h.stream_enqueued
      rw [hwaiting] at hs hmem
      rw [hreported]
      constructor
      · simp only [List.pairwise_append, List.pairwise_cons, List.mem_cons, List.mem_append,
          List.pairwise_replicate, List.mem_replicate] at hs ⊢
        refine ⟨⟨hs.1, Or.inr (UInt64.le_refl _), ?_⟩, hs.2.1.2, ?_⟩
        · rintro f hf g ⟨-, rfl⟩
          exact hs.2.2 f hf _ (Or.inl rfl)
        · rintro f (hf | ⟨-, rfl⟩) g hg
          · exact hs.2.2 f hf g (Or.inr hg)
          · exact hs.2.1.1 g hg
      · intro f hf
        simp only [List.mem_append, List.mem_replicate] at hf
        refine hmem f ?_
        simp only [List.mem_append, List.mem_cons]
        tauto
  refine ⟨?_, hsorted.1, ?_, ?_, fun c frame hc => ?_⟩
  · rw [henqueued]
    exact h.enqueued_sorted
  · rw [henqueued]
    exact hsorted.2
  · rw [henqueued, hindex]
    exact h.enqueued_le
  · rw [hcallbacks] at hc
    rw [henqueued, hindex]
    exact h.callback c frame hc

/-- **Every step in order keeps the invariant.** -/
theorem Inv.step {s t : State} {a : Action} (h : Inv s) (horder : InOrder s a)
    (hstep : step s a = some t) : Inv t := by
  cases a with
  | worker => exact h.workerStep hstep
  | onFrame =>
    cases hstep
    have hlt : s.frameIndex ≤ s.frameIndex + 1 := le_add_one horder
    refine ⟨h.enqueued_sorted, h.stream_sorted, h.stream_enqueued, fun frame hf => ?_,
      fun c frame hc => ⟨?_, (h.callback c frame hc).2⟩⟩
    · exact UInt64.le_trans (h.enqueued_le frame hf) hlt
    · exact UInt64.le_trans (h.callback c frame hc).1 hlt
  | lockAlloc c =>
    simp only [Frames.step] at hstep
    cases hc : s.callbacks c with
    | notStarted =>
      simp only [hc] at hstep
      split_ifs at hstep
      cases hstep
      have h' : Inv { s with addAllocMutex := some c } := h.congr rfl rfl rfl rfl rfl
      exact h'.setCallback (by simp [CallbackPc.frame?])
    | _ => simp [hc] at hstep
  | readFrame c =>
    simp only [Frames.step] at hstep
    cases hc : s.callbacks c with
    | allocLocked =>
      simp only [hc, Option.some.injEq] at hstep
      subst hstep
      exact h.setCallback (by simp [CallbackPc.frame?])
    | _ => simp [hc] at hstep
  | enqueueAlloc c klass obj size backtrace =>
    simp only [Frames.step] at hstep
    cases hc : s.callbacks c with
    | allocRead frame =>
      simp only [hc, Option.some.injEq] at hstep
      subst hstep
      have hframe : (s.callbacks c).frame? = some frame := by rw [hc]; rfl
      exact (h.enqueue (.alloc frame klass obj size backtrace) hframe horder).setCallback
        (by simp [CallbackPc.frame?])
    | _ => simp [hc] at hstep
  | unlockAlloc c =>
    simp only [Frames.step] at hstep
    cases hc : s.callbacks c with
    | allocEnqueued =>
      simp only [hc, Option.some.injEq] at hstep
      subst hstep
      have h' : Inv { s with addAllocMutex := none } := h.congr rfl rfl rfl rfl rfl
      exact h'.setCallback (by simp [CallbackPc.frame?])
    | _ => simp [hc] at hstep
  | startGc c =>
    simp only [Frames.step] at hstep
    cases hc : s.callbacks c with
    | notStarted =>
      simp only [hc, Option.some.injEq] at hstep
      subst hstep
      exact h.setCallback (by simp [CallbackPc.frame?])
    | _ => simp [hc] at hstep
  | readFlag c =>
    simp only [Frames.step] at hstep
    cases hc : s.callbacks c with
    | gcWaiting frame =>
      simp only [hc, Option.some.injEq] at hstep
      subst hstep
      split_ifs
      · exact h.setCallback fun f hf => Or.inl (by rw [hc]; exact hf)
      · exact h
    | _ => simp [hc] at hstep
  | lockGc c =>
    simp only [Frames.step] at hstep
    cases hc : s.callbacks c with
    | gcLocking frame =>
      simp only [hc] at hstep
      split_ifs at hstep
      cases hstep
      have h' : Inv { s with gcMutex := some (.call c) } := h.congr rfl rfl rfl rfl rfl
      exact h'.setCallback fun f hf => Or.inl (by rw [hc]; exact hf)
    | _ => simp [hc] at hstep
  | mark c mem =>
    simp only [Frames.step] at hstep
    cases hc : s.callbacks c with
    | gcMarking frame =>
      simp only [hc, Option.some.injEq] at hstep
      subst hstep
      have h' : Inv (markAndForget s mem).1 := h.congr rfl rfl rfl rfl rfl
      refine h'.setCallback fun f hf => Or.inl ?_
      have hframe : some frame = some f := by
        cases hlist : (markAndForget s mem).2 with
        | nil => simp [hlist, CallbackPc.frame?] at hf
        | cons e rest => simpa [hlist, CallbackPc.frame?] using hf
      exact (congrArg CallbackPc.frame? hc).trans hframe
    | _ => simp [hc] at hstep
  | sweep c =>
    simp only [Frames.step] at hstep
    cases hc : s.callbacks c with
    | gcSweeping frame unmarked =>
      cases unmarked with
      | nil =>
        simp only [hc, Option.some.injEq] at hstep
        subst hstep
        have h' : Inv { s with
            thread := { s.thread with lastGcFrame := frame }, gcMutex := none } :=
          h.congr rfl rfl rfl rfl rfl
        exact h'.setCallback (by simp [CallbackPc.frame?])
      | cons e rest =>
        simp only [hc, Option.some.injEq] at hstep
        subst hstep
        -- the frame number was read before the wait, so this is where an older one may come late
        have hframe : (s.callbacks c).frame? = some frame := by rw [hc]; rfl
        refine (h.enqueue (.free frame e.1 e.2) hframe horder).setCallback fun f hf => ?_
        refine Or.inl (hframe.trans ?_)
        cases rest with
        | nil => simp [CallbackPc.frame?] at hf
        | cons => simpa [CallbackPc.frame?] using hf
    | _ => simp [hc] at hstep

/-- **Frame numbers never go backwards**, in the queue and in the events, if nothing is enqueued
while a callback is busy with an older frame number and the frame index does not overflow. -/
theorem frames_nondecreasing {l : List Action} {s : State} (hrun : Run.run step {} l = some s)
    (horder : Run.Along step InOrder {} l) :
    s.enqueued.Pairwise (· ≤ ·) ∧ s.reported.Pairwise (· ≤ ·) := by
  have h : Inv s :=
    Run.run_invariant (fun _ _ _ h hP hstep => h.step hP hstep) Inv.initial horder hrun
  exact ⟨h.enqueued_sorted, h.stream_sorted.sublist (List.sublist_append_left _ _)⟩

/-- An allocation is reported in each of two frames. -/
def twoFrames : List Action :=
  [.lockAlloc 0, .readFrame 0, .enqueueAlloc 0 ⟨none, .empty⟩ 16 8 [], .unlockAlloc 0, .onFrame,
    .lockAlloc 1, .readFrame 1, .enqueueAlloc 1 ⟨none, .empty⟩ 24 8 []]

theorem frames_nondecreasing_twoFrames :
    ∃ s, Run.run step {} twoFrames = some s ∧
      s.enqueued.Pairwise (· ≤ ·) ∧ s.reported.Pairwise (· ≤ ·) := by
  refine ⟨_, rfl, @frames_nondecreasing twoFrames _ rfl ?_⟩
  refine .cons trivial rfl (.cons trivial rfl (.cons (noOlder_of_alone fun c hc => ?_) rfl
    (.cons trivial rfl (.cons ?_ rfl (.cons trivial rfl (.cons trivial rfl
      (.cons (noOlder_of_alone fun c hc => ?_) rfl trivial)))))))
  · simp [Function.update_of_ne hc, CallbackPc.frame?]
  · exact (by decide : (0 : UInt64) + 1 ≠ 0)
  · by_cases h0 : c = 0 <;>
      simp [Function.update_of_ne hc, h0, CallbackPc.frame?]

/-- A collection starts in frame 0 and has already found its object when an allocation of frame 1
comes in. -/
theorem allocation_overtakes_free :
    ¬ ∀ (l : List Action) (s : State), Run.run step {} l = some s →
      s.enqueued.Pairwise (· ≤ ·) ∧ s.reported.Pairwise (· ≤ ·) := by
  intro h
  have h' := h
    ([.lockAlloc 0, .readFrame 0, .enqueueAlloc 0 ⟨none, .empty⟩ 16 8 [], .unlockAlloc 0] ++
      List.replicate 12 .worker ++
      [.startGc 1, .readFlag 1, .lockGc 1, .mark 1 fun _ => none, .onFrame, .lockAlloc 2,
        .readFrame 2, .enqueueAlloc 2 ⟨none, .empty⟩ 24 8 [], .sweep 1]) _ rfl
  exact absurd h'.1 (by decide)

/-- **The condition is needed**: once an item of a later frame is in the queue, a callback that is
about to enqueue one of its own takes the frames back. -/
theorem inversion_possible {s : State} {c : ℕ} {frame frame' : UInt64}
    (hc : s.callbacks c = .allocRead frame ∨
      ∃ e rest, s.callbacks c = .gcSweeping frame (e :: rest))
    (hmem : frame' ∈ s.enqueued) (hlt : frame < frame') :
    ∃ a t, step s a = some t ∧ ¬ t.enqueued.Pairwise (· ≤ ·) := by
  have hback : ¬ (s.enqueued ++ [frame]).Pairwise (· ≤ ·) := fun h => by
    have hle : frame' ≤ frame := (List.pairwise_append.1 h).2.2 frame' hmem frame (by simp)
    exact absurd hlt (UInt64.not_lt.2 hle)
  rcases hc with hc | ⟨e, rest, hc⟩
  · refine ⟨.enqueueAlloc c ⟨none, .empty⟩ 0 0 [],
      setCallback (enqueue s (.alloc frame ⟨none, .empty⟩ 0 0 [])) c .allocEnqueued,
      by simp only [step, hc], ?_⟩
    change ¬ (enqueue s _).enqueued.Pairwise (· ≤ ·)
    rw [enqueued_enqueue]
    exact hback
  · refine ⟨.sweep c, setCallback (enqueue s (.free frame e.1 e.2)) c (.gcSweeping frame rest),
      by simp only [step, hc], ?_⟩
    change ¬ (enqueue s _).enqueued.Pairwise (· ≤ ·)
    rw [enqueued_enqueue]
    exact hback

/-! ### A collection without interruption -/

/-- The items left are enqueued one after the other. -/
theorem run_sweep {s : State} {c : ℕ} {frame : UInt64} {left : List (UInt64 × UInt32)}
    (hc : s.callbacks c = .gcSweeping frame left) :
    Run.run step s (List.replicate (left.length + 1) (.sweep c)) =
      some (setCallback { s with
        thread := { s.thread with
          workItems := s.thread.workItems.enqueueAll (left.map fun e => .free frame e.1 e.2)
          lastGcFrame := frame }
        gcMutex := none } c .returned) := by
  induction left generalizing s with
  | nil =>
    simp only [List.length_nil, Nat.zero_add, List.replicate_one, Run.run_cons, Run.run_nil, step,
      hc]
    rfl
  | cons e left ih =>
    rw [List.length_cons, List.replicate_succ, Run.run_cons]
    simp only [step, hc, Option.bind_some]
    rw [ih (by simp)]
    simp [setCallback, enqueue, Fifo.enqueueAll]

/-- **A collection nobody comes between is `do_gc_sync`.** -/
theorem run_mark_sweep {s : State} {c : ℕ} {frame : UInt64} (hc : s.callbacks c = .gcMarking frame)
    (mem : Memory) :
    Run.run step s (.mark c mem ::
        List.replicate ((markAndForget s mem).2.length + 1) (.sweep c)) =
      some (setCallback { s with
        thread := s.thread.doGcSync frame false mem, gcMutex := none } c .returned) := by
  rw [Run.run_cons]
  simp only [step, hc, Option.bind_some]
  rw [@run_sweep _ c frame (markAndForget s mem).2 (by simp)]
  simp [setCallback, markAndForget, unmarked, WorkerThread.doGcSync, WorkerThread.doGcInternal,
    WorkerThread.sweep]
  rfl

end Frames

end Owlcat
