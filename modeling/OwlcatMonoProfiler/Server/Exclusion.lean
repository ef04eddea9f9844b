import OwlcatMonoProfiler.Server.Interleaving
import OwlcatMonoProfiler.Server.References

/-!
# Reference searches and the worker loop

`find_references`, `pause_app` and `resume_app` of `server/src/mono_profiler.cpp` and
`worker_thread.cpp`, step by step, between the steps of the worker loop and of the allocation
callbacks.  All requests come from one thread, the commands thread of the server.

* `CommandPc`, `AllocPc`, `State`: where each thread is, and who holds `m_gc_mutex`,
  `m_add_alloc_mutex` and `m_stop_mutex`.  `m_roots_mutex` is not a member: the commands thread
  takes it right after `m_gc_mutex` and nobody else takes it here;
* `Action`, `step`: one step of one thread;
* `StartsDrained`: a search in a paused app starts when no allocation is left that the worker thread
  would enter into the map;
* `search_excludes_worker`: then the worker thread changes nothing in the map during a search;
* `search_overtaken`: an allocation that is left is entered into the map during the search, if the
  search takes long enough.
-/

namespace Owlcat

/-- The item makes `do_work` insert into the map or modify it. -/
def WorkItem.enters : WorkItem → Bool
  | .alloc _ _ _ _ backtrace => (WorkerThread.callstack backtrace).isSome
  | .free .. => false

namespace WorkerThread

/-- Other items leave the map alone. -/
theorem allocations_processItem {w : WorkerThread} {item : WorkItem} (h : item.enters = false) :
    (w.processItem item).allocations = w.allocations := by
  cases item with
  | free frame obj size => rfl
  | alloc frame klass obj size backtrace =>
    have hnone : callstack backtrace = none := by simpa [WorkItem.enters] using h
    simp [processItem, hnone]

end WorkerThread

namespace Exclusion

/-- A request for references. -/
structure Request where
  requestId : UInt64
  addresses : List UInt64
  deriving DecidableEq

/-- The next step of the commands thread.  `pausing` waits for `m_stop_mutex`, `findLocking` for
`m_add_alloc_mutex`, `reading` is at the beginning of `worker_thread::find_references`.
`waitingFlag`, `gcLocking`, `collecting` are the update of the parents for the frame, `choosing` is
behind it.  `searchLocking` waits for `m_gc_mutex`, `searching` is in `find_references_internal` and
`finishing` behind `worker_thread::find_references`. -/
inductive CommandPc
  | idle
  | pausing (requestId : UInt64)
  | findLocking (r : Request)
  | reading (r : Request)
  | waitingFlag (r : Request) (frame : UInt64)
  | gcLocking (r : Request) (frame : UInt64)
  | collecting (r : Request) (frame : UInt64)
  | choosing (r : Request)
  | searchLocking (r : Request)
  | searching (r : Request) (locked : Bool)
  | finishing
  deriving DecidableEq

/-- The next step of an allocation callback.  `allocLocked` has `m_add_alloc_mutex`, `allocRead` has
read the frame index, `allocShared` has the shared lock on `m_stop_mutex`; `allocEnqueued` and
`allocUnlocking` have the locks left to release. -/
inductive AllocPc
  | notStarted
  | allocLocked
  | allocRead (frame : UInt64)
  | allocShared (frame : UInt64)
  | allocEnqueued
  | allocUnlocking
  | returned
  deriving DecidableEq

/-- Who holds `m_add_alloc_mutex`. -/
inductive AddAllocOwner
  | commands
  | alloc (c : ℕ)
  deriving DecidableEq

/-- The commands thread, as an owner of `m_gc_mutex`. -/
def commandsThread : Interleaving.Owner := .call 0

/-- The data of worker thread and profiler, the positions of all threads, and the mutexes.
`stopReaders` are the callbacks with a shared lock on `m_stop_mutex`; the commands thread has it
exclusively when `thread.stopLock` is set. -/
structure State where
  thread : WorkerThread := {}
  pc : Interleaving.WorkerPc := .loopHead
  gcMutex : Option Interleaving.Owner := none
  frameIndex : UInt64 := 0
  addAllocMutex : Option AddAllocOwner := none
  stopReaders : List ℕ := []
  commands : CommandPc := .idle
  allocs : ℕ → AllocPc := fun _ => .notStarted

/-- One step of one thread. -/
inductive Action
  | worker
  | onFrame
  | alloc (c : ℕ) (klass : MonoClass) (obj : UInt64) (size : UInt32) (backtrace : List MonoMethod)
  | pause (requestId : UInt64)
  | resume (requestId : UInt64)
  | findReferences (r : Request)
  | command (mem : Memory) (classOf : ClassLookup)

/-- What the worker thread sees. -/
def State.loop (s : State) : Interleaving.State :=
  { thread := s.thread, pc := s.pc, gcMutex := s.gcMutex }

/-- The next step of the worker thread. -/
def workerStep (s : State) : Option State :=
  (Interleaving.workerStep s.loop).map fun t =>
    { s with thread := t.thread, pc := t.pc, gcMutex := t.gcMutex }

/-- Move one allocation callback. -/
def setAlloc (s : State) (c : ℕ) (p : AllocPc) : State :=
  { s with allocs := Function.update s.allocs c p }

/-- The next step of an allocation callback. -/
def allocStep (s : State) (c : ℕ) (klass : MonoClass) (obj : UInt64) (size : UInt32)
    (backtrace : List MonoMethod) : Option State :=
  match s.allocs c with
  | .notStarted =>
    if s.addAllocMutex = none then
      some (setAlloc { s with addAllocMutex := some (.alloc c) } c .allocLocked)
    else none
  | .allocLocked => some (setAlloc s c (.allocRead s.frameIndex))
  | .allocRead frame =>
    if s.thread.stopLock then none
    else some (setAlloc { s with stopReaders := c :: s.stopReaders } c (.allocShared frame))
  | .allocShared frame =>
    some (setAlloc { s with
      thread := s.thread.addAllocationAsync frame klass obj size backtrace } c .allocEnqueued)
  | .allocEnqueued =>
    some (setAlloc { s with stopReaders := s.stopReaders.filter (· ≠ c) } c .allocUnlocking)
  | .allocUnlocking => some (setAlloc { s with addAllocMutex := none } c .returned)
  | .returned => none

/-- The next step of the commands thread in a request. -/
def commandStep (s : State) (mem : Memory) (classOf : ClassLookup) : Option State :=
  match s.commands with
  | .idle => none
  | .pausing requestId =>
    if s.stopReaders = [] then
      some { s with thread := s.thread.pauseApp requestId, commands := .idle }
    else none
  | .findLocking r =>
    if s.addAllocMutex = none then
      some { s with addAllocMutex := some .commands, commands := .reading r }
    else none
  | .reading r =>
    if s.frameIndex > s.thread.lastGcFrame then
      some { s with commands := .waitingFlag r s.frameIndex }
    else some { s with commands := .choosing r }
  | .waitingFlag r frame =>
    some (if s.thread.workItemsEmpty then { s with commands := .gcLocking r frame } else s)
  | .gcLocking r frame =>
    if s.gcMutex = none then
      some { s with gcMutex := some commandsThread, commands := .collecting r frame }
    else none
  | .collecting r frame =>
    some { s with
      thread := s.thread.doGcSync frame true mem, gcMutex := none, commands := .choosing r }
  | .choosing r =>
    if s.thread.stopLock then some { s with commands := .searching r false }
    else some { s with commands := .searchLocking r }
  | .searchLocking r =>
    if s.gcMutex = none then
      some { s with gcMutex := some commandsThread, commands := .searching r true }
    else none
  | .searching r locked =>
    (s.thread.findReferencesInternal r.requestId r.addresses classOf).map fun w =>
      { s with
        thread := w, gcMutex := if locked then none else s.gcMutex, commands := .finishing }
  | .finishing =>
    some { s with
      addAllocMutex := if s.addAllocMutex = some .commands then none else s.addAllocMutex
      commands := .idle }

/-- The state after a step. -/
def step (s : State) : Action → Option State
  | .worker => workerStep s
  | .onFrame => some { s with frameIndex := s.frameIndex + 1 }
  | .alloc c klass obj size backtrace => allocStep s c klass obj size backtrace
  | .pause requestId =>
    match s.commands with
    | .idle =>
      if s.thread.stopLock then some { s with thread := s.thread.pauseApp requestId }
      else some { s with commands := .pausing requestId }
    | _ => none
  | .resume requestId =>
    match s.commands with
    | .idle => some { s with thread := s.thread.resumeApp requestId }
    | _ => none
  | .findReferences r =>
    match s.commands with
    | .idle =>
      some { s with commands := if s.thread.stopLock then .reading r else .findLocking r }
    | _ => none
  | .command mem classOf => commandStep s mem classOf

/-- The commands thread is in `find_references_internal`. -/
def CommandPc.isSearching : CommandPc → Bool
  | .searching .. => true
  | _ => false

/-- The commands thread holds `m_gc_mutex`. -/
def CommandPc.holdsGc : CommandPc → Bool
  | .collecting .. | .searching _ true => true
  | _ => false

/-- The callback has a shared lock on `m_stop_mutex`. -/
def AllocPc.holdsStop : AllocPc → Bool
  | .allocShared _ | .allocEnqueued => true
  | _ => false

/-- No allocation is left that the worker thread would enter into the map. -/
def Drained (s : State) : Prop := ∀ item ∈ s.loop.left, item.enters = false

/-- The condition under which searches start. -/
def StartsDrained (s : State) : Action → Prop
  | .command .. => ∀ r, s.commands = .choosing r → s.thread.stopLock → Drained s
  | _ => True

instance (s : State) : Decidable (Drained s) :=
  inferInstanceAs (Decidable (∀ item ∈ s.loop.left, item.enters = false))

instance (s : State) : ∀ a, Decidable (StartsDrained s a)
  | .command .. =>
    match h : s.commands with
    | .choosing r =>
      decidable_of_iff (s.thread.stopLock → Drained s) (by simp [StartsDrained, h])
    | .idle | .pausing _ | .findLocking _ | .reading _ | .waitingFlag .. | .gcLocking ..
    | .collecting .. | .searchLocking _ | .searching .. | .finishing =>
      .isTrue (by simp [StartsDrained, h])
  | .worker | .onFrame | .alloc .. | .pause _ | .resume _ | .findReferences _ => .isTrue trivial

/-! ### The invariant -/

/-- **The invariant of the searches.** -/
structure Inv (s : State) : Prop where
  running : s.thread.stop = false
  worker_mutex : s.gcMutex = some .worker ↔ s.pc.holdsMutex
  commands_mutex : s.commands.holdsGc → s.gcMutex = some commandsThread
  readers : ∀ c, (s.allocs c).holdsStop → c ∈ s.stopReaders
  paused : s.thread.stopLock → s.stopReaders = []
  searching : ∀ r, s.commands = .searching r false → s.thread.stopLock ∧ Drained s

theorem Inv.initial : Inv {} :=
  ⟨rfl, by decide, by decide, nofun, fun _ => rfl, by simp⟩

theorem Inv.workerStep {s t : State} (h : Inv s) (hstep : workerStep s = some t) : Inv t := by
  obtain ⟨u, hu, rfl⟩ := Option.map_eq_some_iff.1 hstep
  obtain ⟨hworker, hcall⟩ := Interleaving.workerStep_mutex h.worker_mutex hu
  obtain ⟨hstop, hlock⟩ := Interleaving.workerStep_stop hu
  refine ⟨hstop.trans h.running, hworker, fun hgc => hcall 0 (h.commands_mutex hgc), h.readers,
    fun hl => h.paused (hlock ▸ hl), fun r hr => ?_⟩
  obtain ⟨hpaused, hdrained⟩ := h.searching r hr
  -- the worker enqueues nothing, so what was drained when the search began stays so
  refine ⟨hlock.trans hpaused, fun item hitem => ?_⟩
  rcases (Interleaving.workerStep_left hu).2 with ⟨hsub, -⟩ | ⟨first, -, hleft, -⟩
  · exact hdrained item (hsub.subset hitem)
  · refine hdrained item ?_
    rw [hleft]
    exact List.mem_cons_of_mem _ hitem

/-- A callback moves; it has a shared lock afterwards only if it is among the readers. -/
theorem Inv.setAlloc {s : State} {c : ℕ} {p : AllocPc} (h : Inv s)
    (hp : p.holdsStop → c ∈ s.stopReaders) : Inv (setAlloc s c p) := by
  refine ⟨h.running, h.worker_mutex, h.commands_mutex, fun d hd => ?_, h.paused, h.searching⟩
  by_cases hdc : d = c
  · subst hdc
    exact hp (by simpa [Exclusion.setAlloc] using hd)
  · exact h.readers d (by simpa [Exclusion.setAlloc, Function.update_of_ne hdc] using hd)

theorem Inv.allocStep {s t : State} {c : ℕ} {klass : MonoClass} {obj : UInt64} {size : UInt32}
    {backtrace : List MonoMethod} (h : Inv s)
    (hstep : allocStep s c klass obj size backtrace = some t) : Inv t := by
  unfold Exclusion.allocStep at hstep
  cases hc : s.allocs c with
  | notStarted =>
    simp only [hc] at hstep
    split_ifs at hstep
    cases hstep
    have h' : Inv { s with addAllocMutex := some (.alloc c) } :=
      ⟨h.running, h.worker_mutex, h.commands_mutex, h.readers, h.paused, h.searching⟩
    exact h'.setAlloc nofun
  | allocLocked =>
    simp only [hc, Option.some.injEq] at hstep
    subst hstep
    exact h.setAlloc nofun
  | allocRead frame =>
    simp only [hc] at hstep
    split_ifs at hstep with hlock
    cases hstep
    have h' : Inv { s with stopReaders := c :: s.stopReaders } :=
      ⟨h.running, h.worker_mutex, h.commands_mutex,
        fun d hd => List.mem_cons_of_mem _ (h.readers d hd), fun hl => absurd hl hlock,
        fun r hr => absurd (h.searching r hr).1 hlock⟩
    exact h'.setAlloc fun _ => List.mem_cons_self
  | allocShared frame =>
    simp only [hc, Option.some.injEq] at hstep
    subst hstep
    have hreader : c ∈ s.stopReaders := h.readers c (by rw [hc]; rfl)
    -- the shared lock keeps the app from being paused, so no search without locks is going on
    have hlock : ¬ s.thread.stopLock := fun hl => by simp [h.paused hl] at hreader
    have h' : Inv { s with thread := s.thread.addAllocationAsync frame klass obj size backtrace } :=
      ⟨h.running, h.worker_mutex, h.commands_mutex, h.readers, h.paused,
        fun r hr => absurd (h.searching r hr).1 hlock⟩
    exact h'.setAlloc fun _ => hreader
  | allocEnqueued =>
    simp only [hc, Option.some.injEq] at hstep
    subst hstep
    refine ⟨h.running, h.worker_mutex, h.commands_mutex, fun d hd => ?_, fun hl => ?_, h.searching⟩
    · by_cases hdc : d = c
      · subst hdc
        simp only [Exclusion.setAlloc, Function.update_self] at hd
        cases hd
      · have hd' : (s.allocs d).holdsStop := by
          simpa [Exclusion.setAlloc, Function.update_of_ne hdc] using hd
        simpa [Exclusion.setAlloc, hdc] using h.readers d hd'
    · simp [Exclusion.setAlloc, h.paused hl]
  | allocUnlocking =>
    simp only [hc, Option.some.injEq] at hstep
    subst hstep
    have h' : Inv { s with addAllocMutex := none } :=
      ⟨h.running, h.worker_mutex, h.commands_mutex, h.readers, h.paused, h.searching⟩
    exact h'.setAlloc nofun
  | returned => simp [hc] at hstep

/-- The commands thread takes the free mutex or releases its own. -/
theorem worker_mutex_of_commands {s : State} (h : Inv s) {owner : Option Interleaving.Owner}
    (hs : s.gcMutex = none ∨ s.gcMutex = some commandsThread)
    (ht : owner = none ∨ owner = some commandsThread) :
    owner = some .worker ↔ s.pc.holdsMutex := by
  have hs' : ¬ s.pc.holdsMutex := by
    rw [← h.worker_mutex]
    rcases hs with hs | hs <;> simp [hs, commandsThread]
  rcases ht with rfl | rfl <;> simp [hs', commandsThread]

theorem Inv.commandStep {s t : State} {mem : Memory} {classOf : ClassLookup} (h : Inv s)
    (hdrained : ∀ r, s.commands = .choosing r → s.thread.stopLock → Drained s)
    (hstep : commandStep s mem classOf = some t) : Inv t := by
  unfold Exclusion.commandStep at hstep
  cases hc : s.commands with
  | idle => simp [hc] at hstep
  | pausing requestId =>
    simp only [hc] at hstep
    split_ifs at hstep with hfree
    cases hstep
    exact ⟨h.running, h.worker_mutex, by simp [CommandPc.holdsGc], h.readers, fun _ => hfree,
      by simp⟩
  | findLocking r =>
    simp only [hc] at hstep
    split_ifs at hstep
    cases hstep
    exact ⟨h.running, h.worker_mutex, by simp [CommandPc.holdsGc], h.readers, h.paused, by simp⟩
  | reading r =>
    simp only [hc] at hstep
    split_ifs at hstep <;> cases hstep <;>
      exact ⟨h.running, h.worker_mutex, by simp [CommandPc.holdsGc], h.readers, h.paused, by simp⟩
  | waitingFlag r frame =>
    simp only [hc, Option.some.injEq] at hstep
    subst hstep
    split_ifs
    · exact ⟨h.running, h.worker_mutex, by simp [CommandPc.holdsGc], h.readers, h.paused, by simp⟩
    · exact h
  | gcLocking r frame =>
    simp only [hc] at hstep
    split_ifs at hstep with hfree
    cases hstep
    exact ⟨h.running, worker_mutex_of_commands h (Or.inl hfree) (Or.inr rfl), fun _ => rfl,
      h.readers, h.paused, by simp⟩
  | collecting r frame =>
    simp only [hc, Option.some.injEq] at hstep
    subst hstep
    have hown : s.gcMutex = some commandsThread := h.commands_mutex (by rw [hc]; rfl)
    exact ⟨h.running, worker_mutex_of_commands h (Or.inr hown) (Or.inl rfl),
      by simp [CommandPc.holdsGc], h.readers, h.paused, by simp⟩
  | choosing r =>
    simp only [hc] at hstep
    split_ifs at hstep with hlock
    · -- the app is paused, and the search goes on without `m_gc_mutex`
      cases hstep
      exact ⟨h.running, h.worker_mutex, by simp [CommandPc.holdsGc], h.readers, h.paused,
        fun _ _ => ⟨hlock, hdrained r hc hlock⟩⟩
    · cases hstep
      exact ⟨h.running, h.worker_mutex, by simp [CommandPc.holdsGc], h.readers, h.paused, by simp⟩
  | searchLocking r =>
    simp only [hc] at hstep
    split_ifs at hstep with hfree
    cases hstep
    exact ⟨h.running, worker_mutex_of_commands h (Or.inl hfree) (Or.inr rfl), fun _ => rfl,
      h.readers, h.paused, by simp⟩
  | searching r locked =>
    simp only [hc] at hstep
    obtain ⟨w, hw, rfl⟩ := Option.map_eq_some_iff.1 hstep
    obtain ⟨result, -, rfl⟩ := Option.map_eq_some_iff.1 hw
    refine ⟨h.running, ?_, by simp [CommandPc.holdsGc], h.readers, h.paused, by simp⟩
    cases locked with
    | false => exact h.worker_mutex
    | true =>
      have hown : s.gcMutex = some commandsThread := h.commands_mutex (by rw [hc]; rfl)
      exact worker_mutex_of_commands h (Or.inr hown) (Or.inl rfl)
  | finishing =>
    simp only [hc, Option.some.injEq] at hstep
    subst hstep
    exact ⟨h.running, h.worker_mutex, by simp [CommandPc.holdsGc], h.readers, h.paused, by simp⟩

/-- **Every step keeps the invariant**, if searches start drained. -/
theorem Inv.step {s t : State} {a : Action} (h : Inv s) (hstart : StartsDrained s a)
    (hstep : step s a = some t) : Inv t := by
  cases a with
  | worker => exact h.workerStep hstep
  | onFrame =>
    cases hstep
    exact ⟨h.running, h.worker_mutex, h.commands_mutex, h.readers, h.paused, h.searching⟩
  | alloc c klass obj size backtrace => exact h.allocStep hstep
  | pause requestId =>
    simp only [Exclusion.step] at hstep
    cases hc : s.commands with
    | idle =>
      simp only [hc] at hstep
      split_ifs at hstep with hlock
      · cases hstep
        exact ⟨h.running, h.worker_mutex, by simp [CommandPc.holdsGc], h.readers,
          fun _ => h.paused hlock, by simp⟩
      · cases hstep
        exact ⟨h.running, h.worker_mutex, by simp [CommandPc.holdsGc], h.readers, h.paused, by simp⟩
    | _ => simp [hc] at hstep
  | resume requestId =>
    simp only [Exclusion.step] at hstep
    cases hc : s.commands with
    | idle =>
      simp only [hc, Option.some.injEq] at hstep
      subst hstep
      refine ⟨h.running, h.worker_mutex, by simp [CommandPc.holdsGc], h.readers, fun hl => ?_,
        by simp⟩
      cases hl
    | _ => simp [hc] at hstep
  | findReferences r =>
    simp only [Exclusion.step] at hstep
    cases hc : s.commands with
    | idle =>
      simp only [hc, Option.some.injEq] at hstep
      subst hstep
      refine ⟨h.running, h.worker_mutex, fun hgc => ?_, h.readers, h.paused, fun r' hr => ?_⟩
      · dsimp only at hgc
        split_ifs at hgc <;> cases hgc
      · dsimp only at hr
        split_ifs at hr
    | _ => simp [hc] at hstep
  | command mem classOf => exact h.commandStep hstart hstep

/-- **The map does not change during a reference search**, if every search in a paused app starts
when no allocation is left that would enter it. -/
theorem search_excludes_worker {l : List Action} {s : State}
    (hrun : Run.run step {} l = some s) (hstart : Run.Along step StartsDrained {} l)
    (hsearch : s.commands.isSearching) :
    (∀ item, s.pc = .process item → item.enters = false) ∧
      ∀ t, step s .worker = some t → t.thread.allocations = s.thread.allocations := by
  have h : Inv s :=
    Run.run_invariant (fun _ _ _ h hP hstep => h.step hP hstep) Inv.initial hstart hrun
  -- a search with the mutex keeps the worker out, one without it relies on what is left
  have hprocess : ∀ item, s.pc = .process item → item.enters = false := by
    intro item hpc
    cases hc : s.commands with
    | searching r locked =>
      cases locked with
      | true =>
        have hworker : s.gcMutex = some .worker := h.worker_mutex.2 (by rw [hpc]; rfl)
        have hcommands := h.commands_mutex (by rw [hc]; rfl)
        rw [hworker] at hcommands
        cases hcommands
      | false =>
        refine (h.searching r hc).2 item ?_
        simp [State.loop, Interleaving.State.left, hpc]
    | _ => simp [hc, CommandPc.isSearching] at hsearch
  refine ⟨hprocess, fun t hstep => ?_⟩
  obtain ⟨u, hu, rfl⟩ := Option.map_eq_some_iff.1 hstep
  rcases (Interleaving.workerStep_left hu).2 with ⟨-, -, hsame⟩ | ⟨item, hpc, -, hthread⟩
  · exact hsame h.running
  · change u.thread.allocations = s.thread.allocations
    rw [hthread]
    exact WorkerThread.allocations_processItem (hprocess item hpc)

/-- The app is paused, and a search for one address begins. -/
def pausedSearch : List Action :=
  [.pause 1, .command (fun _ => none) fun _ => none, .findReferences ⟨2, [16]⟩,
    .command (fun _ => none) fun _ => none, .command (fun _ => none) fun _ => none]

theorem search_excludes_worker_pausedSearch :
    ∃ s, Run.run step {} pausedSearch = some s ∧
      (∀ item, s.pc = .process item → item.enters = false) ∧
        ∀ t, step s .worker = some t → t.thread.allocations = s.thread.allocations :=
  ⟨_, rfl, search_excludes_worker (l := pausedSearch) rfl (by decide) rfl⟩

/-- An allocation comes in before the pause, and the worker thread gets to it during the search. -/
theorem allocation_entered_in_search :
    ¬ ∀ (l : List Action) (s : State), Run.run step {} l = some s → s.commands.isSearching →
      (∀ item, s.pc = .process item → item.enters = false) ∧
        ∀ t, step s .worker = some t → t.thread.allocations = s.thread.allocations := by
  intro h
  have h' := h (List.replicate 6 (.alloc 0 ⟨none, .empty⟩ 16 8 []) ++ pausedSearch ++
    List.replicate 4 .worker) _ rfl rfl
  exact absurd (h'.1 (.alloc 0 ⟨none, .empty⟩ 16 8 []) rfl) (by decide)

/-- **The condition is needed**: a worker thread at the head of its loop gets to an item that enters
the map before the commands thread makes a step. -/
theorem search_overtaken {s : State} (hpc : s.pc = .loopHead) (hfree : s.gcMutex = none)
    (hstop : s.thread.stop = false) (hleft : ¬ Drained s) :
    ∃ n t item, Run.run step s (List.replicate n .worker) = some t ∧ t.commands = s.commands ∧
      t.pc = .process item ∧ item.enters := by
  -- by induction on the queue: its first item enters the map, or the loop gets past it
  have hpending : ∃ item ∈ s.thread.workItems.pending, item.enters := by
    simpa [Drained, State.loop, Interleaving.State.left, hpc] using hleft
  clear hleft
  induction hl : s.thread.workItems.pending generalizing s with
  | nil => simp [hl] at hpending
  | cons item rest ih =>
    cases hq : s.thread.workItems.tryDequeue with
    | none => simp [Fifo.tryDequeue_eq_none.1 hq] at hl
    | some p =>
      obtain ⟨first, q⟩ := p
      obtain ⟨hcons, -, -⟩ := Fifo.tryDequeue_eq_some hq
      obtain ⟨rfl, hrest⟩ := List.cons.inj (hcons.symm.trans hl)
      let s₄ : State := { s with
        thread := { s.thread with workItemsEmpty := false, workItems := q }
        gcMutex := some .worker
        pc := .process first }
      have hfour : Run.run step s (List.replicate 4 .worker) = some s₄ := by
        simp [List.replicate, step, workerStep, State.loop, Interleaving.workerStep, hpc, hfree,
          hstop, hq, s₄]
      by_cases hfirst : first.enters
      · exact ⟨4, s₄, first, hfour, rfl, rfl, hfirst⟩
      · -- the item is dropped or reported, and the loop comes round again
        let s₆ : State := { s₄ with
          thread := s₄.thread.processItem first
          gcMutex := none
          pc := .loopHead }
        have hsix : Run.run step s (List.replicate 6 .worker) = some s₆ := by
          rw [show (6 : ℕ) = 4 + 2 from rfl, List.replicate_add, Run.run_append, hfour]
          rfl
        have hqueue : s₆.thread.workItems.pending = rest := by
          change (s₄.thread.processItem first).workItems.pending = rest
          rw [(s₄.thread.processItem_frame first).1]
          exact hrest
        obtain ⟨n, t, found, ht, hcommands, hfound⟩ := @ih s₆ rfl rfl
          ((s₄.thread.stop_processItem first).1.trans hstop) (by
            rw [hqueue]
            simpa [hl, hfirst] using hpending) hqueue
        refine ⟨6 + n, t, found, ?_, hcommands, hfound⟩
        rw [List.replicate_add, Run.run_append, hsix]
        exact ht

end Exclusion

end Owlcat
