import OwlcatMonoProfiler.Library.Progress
import OwlcatMonoProfiler.Server.Exclusion
import OwlcatMonoProfiler.Server.Runs

/-!
# No deadlock

Worker loop, allocation callbacks and requests share three mutexes and a flag, and a request may
wait for all of them.  From every state there is a way on for each of the threads; only a paused app
needs a request to go on.

* `Held`: every mutex is held by a thread that is on its way to release it;
* `canReach_drained`: the worker thread gets to the end of the queue by itself;
* `canReach_returned`: so does a callback to its end, unless the app is paused;
* `canReach_idle`: every request can be answered;
* `settles_of_run`: all of it together.
-/

namespace Owlcat

namespace Exclusion

/-- The callback has `m_add_alloc_mutex`. -/
def AllocPc.isRunning : AllocPc → Bool
  | .notStarted | .returned => false
  | _ => true

/-- The commands thread may have `m_add_alloc_mutex`. -/
def CommandPc.inFindReferences : CommandPc → Bool
  | .idle | .pausing _ | .findLocking _ => false
  | _ => true

/-- The commands thread waits for callbacks, which is only the case when the app is not paused. -/
def CommandPc.waitsForCallbacks : CommandPc → Bool
  | .pausing _ | .findLocking _ => true
  | _ => false

/-- **Who holds what.**  Whoever holds a mutex is in the code that it guards. -/
structure Held (s : State) : Prop where
  running : s.thread.stop = false
  alive : s.pc ≠ .returned
  noDangling : WorkerThread.NoDangling s.thread.allocations
  worker_mutex : s.gcMutex = some .worker ↔ s.pc.holdsMutex
  commands_mutex : s.commands.holdsGc → s.gcMutex = some commandsThread
  gc : ∀ o, s.gcMutex = some o → o = .worker ∨ s.commands.holdsGc
  readers : ∀ c ∈ s.stopReaders, (s.allocs c).holdsStop
  addAlloc : ∀ o, s.addAllocMutex = some o →
    (o = .commands ∧ s.commands.inFindReferences) ∨ ∃ c, o = .alloc c ∧ (s.allocs c).isRunning
  callbacks : ∀ c, (s.allocs c).isRunning → s.addAllocMutex = some (.alloc c)
  waits : s.commands.waitsForCallbacks → s.thread.stopLock = false

theorem Held.initial : Held {} :=
  ⟨rfl, nofun, WorkerThread.noDangling_initial, by decide, by decide, nofun, nofun, nofun, nofun,
    by decide⟩

theorem Held.workerStep {s t : State} (h : Held s) (hstep : workerStep s = some t) : Held t := by
  obtain ⟨u, hu, rfl⟩ := Option.map_eq_some_iff.1 hstep
  obtain ⟨hworker, hcall⟩ := Interleaving.workerStep_mutex h.worker_mutex hu
  obtain ⟨hstop, hlock⟩ := Interleaving.workerStep_stop hu
  have hmove := Interleaving.workerMove hu
  refine ⟨hstop.trans h.running, ?_, ?_, hworker, fun hgc => hcall 0 (h.commands_mutex hgc), ?_,
    h.readers, h.addAlloc, h.callbacks, fun hc => hlock.trans (h.waits hc)⟩
  · cases hmove with
    | exit hpc hstop' => exact absurd (hstop'.symm.trans h.running) (by decide)
    | _ => exact fun hr => by cases hr
  · cases hmove with
    | exit hpc hstop' => exact absurd (hstop'.symm.trans h.running) (by decide)
    | process item hpc => exact WorkerThread.NoDangling.processItem h.noDangling item
    | _ => exact h.noDangling
  · intro o ho
    cases hmove with
    | takeMutex hpc hfree =>
      cases ho
      exact Or.inl rfl
    | releaseMutex hpc => cases ho
    | _ => exact h.gc o ho

/-- A callback moves, and gives or takes its mutexes. -/
theorem Held.moveAlloc {s t : State} (h : Held s) {c : ℕ} {p : AllocPc}
    (hsame : t.pc = s.pc ∧ t.gcMutex = s.gcMutex ∧ t.commands = s.commands ∧
      t.thread.stop = s.thread.stop ∧ t.thread.stopLock = s.thread.stopLock ∧
      t.thread.allocations = s.thread.allocations ∧ t.allocs = s.allocs)
    (hfree : s.addAllocMutex = none ∨ s.addAllocMutex = some (.alloc c))
    (hmutex : t.addAllocMutex = if p.isRunning then some (.alloc c) else none)
    (hold : ∀ d ∈ t.stopReaders, d ≠ c → d ∈ s.stopReaders)
    (hnew : c ∈ t.stopReaders → p.holdsStop) : Held (setAlloc t c p) := by
  obtain ⟨hpc, hgc, hcommands, hstop, hlock, hallocations, hallocs⟩ := hsame
  have hself : (setAlloc t c p).allocs c = p := Function.update_self ..
  have hother : ∀ d, d ≠ c → (setAlloc t c p).allocs d = s.allocs d := by
    intro d hd
    rw [← hallocs]
    exact Function.update_of_ne hd ..
  refine ⟨hstop.trans h.running, ?_, ?_, ?_, ?_, ?_, fun d hd => ?_, fun o ho => ?_,
    fun d hd => ?_, ?_⟩
  · exact hpc ▸ h.alive
  · exact hallocations ▸ h.noDangling
  · show t.gcMutex = _ ↔ t.pc.holdsMutex
    rw [hgc, hpc]
    exact h.worker_mutex
  · show t.commands.holdsGc → t.gcMutex = _
    rw [hgc, hcommands]
    exact h.commands_mutex
  · show ∀ o, t.gcMutex = some o → _ ∨ t.commands.holdsGc
    rw [hgc, hcommands]
    exact h.gc
  · by_cases hdc : d = c
    · subst hdc
      rw [hself]
      exact hnew hd
    · rw [hother d hdc]
      exact h.readers d (hold d hd hdc)
  · refine Or.inr ⟨c, ?_⟩
    rw [hself]
    rw [show (setAlloc t c p).addAllocMutex = t.addAllocMutex from rfl, hmutex] at ho
    split_ifs at ho with hp
    exact ⟨(Option.some.inj ho).symm, hp⟩
  · by_cases hdc : d = c
    · subst hdc
      rw [hself] at hd
      exact hmutex.trans (if_pos hd)
    · rw [hother d hdc] at hd
      have howner := h.callbacks d hd
      rcases hfree with hfree | hfree <;> rw [hfree] at howner
      · cases howner
      · rw [Option.some.injEq, AddAllocOwner.alloc.injEq] at howner
        exact absurd howner.symm hdc
  · show t.commands.waitsForCallbacks → t.thread.stopLock = false
    rw [hcommands, hlock]
    exact h.waits

theorem Held.allocStep {s t : State} {c : ℕ} {klass : MonoClass} {obj : UInt64} {size : UInt32}
    {backtrace : List MonoMethod} (h : Held s)
    (hstep : allocStep s c klass obj size backtrace = some t) : Held t := by
  -- a callback is among the readers exactly while it has the shared lock
  have hreader : c ∈ s.stopReaders → (s.allocs c).holdsStop := h.readers c
  have howner : (s.allocs c).isRunning → s.addAllocMutex = some (.alloc c) := h.callbacks c
  unfold Exclusion.allocStep at hstep
  cases hc : s.allocs c <;> simp only [hc] at hstep hreader howner
  case notStarted =>
    split_ifs at hstep with hfree
    cases hstep
    exact h.moveAlloc ⟨rfl, rfl, rfl, rfl, rfl, rfl, rfl⟩ (Or.inl hfree) rfl (fun _ hd _ => hd)
      hreader
  case allocLocked =>
    cases hstep
    exact h.moveAlloc ⟨rfl, rfl, rfl, rfl, rfl, rfl, rfl⟩ (Or.inr (howner rfl)) (howner rfl)
      (fun _ hd _ => hd) hreader
  case allocRead frame =>
    split_ifs at hstep
    cases hstep
    exact h.moveAlloc ⟨rfl, rfl, rfl, rfl, rfl, rfl, rfl⟩ (Or.inr (howner rfl)) (howner rfl)
      (fun _ hd hne => (List.mem_cons.1 hd).resolve_left hne) fun _ => rfl
  case allocShared frame =>
    cases hstep
    exact h.moveAlloc ⟨rfl, rfl, rfl, rfl, rfl, rfl, rfl⟩ (Or.inr (howner rfl)) (howner rfl)
      (fun _ hd _ => hd) fun _ => rfl
  case allocEnqueued =>
    cases hstep
    exact h.moveAlloc ⟨rfl, rfl, rfl, rfl, rfl, rfl, rfl⟩ (Or.inr (howner rfl)) (howner rfl)
      (fun _ hd _ => List.mem_of_mem_filter hd) fun hd => by simp at hd
  case allocUnlocking =>
    cases hstep
    exact h.moveAlloc ⟨rfl, rfl, rfl, rfl, rfl, rfl, rfl⟩ (Or.inr (howner rfl)) rfl
      (fun _ hd _ => hd) hreader
  case returned => cases hstep

/-- The commands thread moves, and gives or takes its mutexes. -/
theorem Held.moveCommand {s t : State} (h : Held s)
    (hsame : t.pc = s.pc ∧ t.allocs = s.allocs ∧ t.stopReaders = s.stopReaders ∧
      t.thread.stop = s.thread.stop)
    (hdangling : WorkerThread.NoDangling t.thread.allocations)
    (hgc : t.gcMutex = s.gcMutex ∧ t.commands.holdsGc = s.commands.holdsGc ∨
      s.gcMutex ≠ some .worker ∧
        t.gcMutex = if t.commands.holdsGc then some commandsThread else none)
    (hadd : t.addAllocMutex = s.addAllocMutex ∧
        (s.commands.inFindReferences → t.commands.inFindReferences) ∨
      s.addAllocMutex = none ∧ t.addAllocMutex = some .commands ∧ t.commands.inFindReferences ∨
      t.addAllocMutex = if s.addAllocMutex = some .commands then none else s.addAllocMutex)
    (hwaits : t.commands.waitsForCallbacks → t.thread.stopLock = false) : Held t := by
  obtain ⟨hpc, hallocs, hreaders, hstop⟩ := hsame
  refine ⟨hstop.trans h.running, hpc ▸ h.alive, hdangling, ?_, fun hc => ?_, fun o ho => ?_, ?_,
    fun o ho => ?_, fun c hc => ?_, hwaits⟩
  · rw [hpc]
    rcases hgc with ⟨hgc, -⟩ | ⟨hother, hgc⟩
    · rw [hgc]
      exact h.worker_mutex
    · refine iff_of_false (fun ht => ?_) fun hs => hother (h.worker_mutex.2 hs)
      rw [hgc] at ht
      split_ifs at ht
      cases ht
  · rcases hgc with ⟨hgc, hholds⟩ | ⟨-, hgc⟩
    · exact hgc.trans (h.commands_mutex (hholds ▸ hc))
    · exact hgc.trans (if_pos hc)
  · rcases hgc with ⟨hgc, hholds⟩ | ⟨-, hgc⟩
    · rw [hholds]
      exact h.gc o (hgc ▸ ho)
    · rw [hgc] at ho
      split_ifs at ho with hc
      exact Or.inr hc
  · rw [hreaders, hallocs]
    exact h.readers
  · rw [hallocs]
    rcases hadd with ⟨hadd, hfind⟩ | ⟨-, hadd, hfind⟩ | hadd <;> rw [hadd] at ho
    · exact (h.addAlloc o ho).imp (And.imp_right hfind) id
    · cases ho
      exact Or.inl ⟨rfl, hfind⟩
    · split_ifs at ho with hs
      rcases h.addAlloc o ho with ⟨rfl, -⟩ | hc
      · exact absurd ho hs
      · exact Or.inr hc
  · rw [hallocs] at hc
    have howner := h.callbacks c hc
    rcases hadd with ⟨hadd, -⟩ | ⟨hnone, -⟩ | hadd
    · exact hadd.trans howner
    · rw [hnone] at howner
      cases howner
    · rw [hadd, howner]
      rfl

theorem Held.commandStep {s t : State} {mem : Memory} {classOf : ClassLookup} (h : Held s)
    (hstep : commandStep s mem classOf = some t) : Held t := by
  unfold Exclusion.commandStep at hstep
  cases hc : s.commands <;> simp only [hc] at hstep
  case idle => cases hstep
  case pausing requestId =>
    split_ifs at hstep
    cases hstep
    exact h.moveCommand ⟨rfl, rfl, rfl, rfl⟩ h.noDangling (Or.inl ⟨rfl, by rw [hc]; rfl⟩)
      (Or.inl ⟨rfl, by simp [hc, CommandPc.inFindReferences]⟩) fun hwaits => by cases hwaits
  case findLocking r =>
    split_ifs at hstep with hfree
    cases hstep
    exact h.moveCommand ⟨rfl, rfl, rfl, rfl⟩ h.noDangling (Or.inl ⟨rfl, by rw [hc]; rfl⟩)
      (Or.inr (Or.inl ⟨hfree, rfl, rfl⟩)) fun hwaits => by cases hwaits
  case reading r =>
    split_ifs at hstep <;> cases hstep <;>
      exact h.moveCommand ⟨rfl, rfl, rfl, rfl⟩ h.noDangling
        (Or.inl ⟨rfl, by rw [hc]; rfl⟩) (Or.inl ⟨rfl, fun _ => rfl⟩) fun hwaits => by cases hwaits
  case waitingFlag r frame =>
    split_ifs at hstep <;> cases hstep
    · exact h.moveCommand ⟨rfl, rfl, rfl, rfl⟩ h.noDangling
        (Or.inl ⟨rfl, by rw [hc]; rfl⟩) (Or.inl ⟨rfl, fun _ => rfl⟩) fun hwaits => by cases hwaits
    · exact h
  case gcLocking r frame =>
    split_ifs at hstep with hfree
    cases hstep
    exact h.moveCommand ⟨rfl, rfl, rfl, rfl⟩ h.noDangling
      (Or.inr ⟨by simp [hfree], rfl⟩) (Or.inl ⟨rfl, fun _ => rfl⟩) fun hwaits => by cases hwaits
  case collecting r frame =>
    cases hstep
    have hown : s.gcMutex = some commandsThread := h.commands_mutex (by rw [hc]; rfl)
    exact h.moveCommand ⟨rfl, rfl, rfl, WorkerThread.doGcSync_stop ..⟩
      (WorkerThread.NoDangling.doGcInternal s.thread frame true mem)
      (Or.inr ⟨by simp [hown, commandsThread], rfl⟩) (Or.inl ⟨rfl, fun _ => rfl⟩)
      fun hwaits => by cases hwaits
  case choosing r =>
    split_ifs at hstep <;> cases hstep <;>
      exact h.moveCommand ⟨rfl, rfl, rfl, rfl⟩ h.noDangling
        (Or.inl ⟨rfl, by rw [hc]; rfl⟩) (Or.inl ⟨rfl, fun _ => rfl⟩) fun hwaits => by cases hwaits
  case searchLocking r =>
    split_ifs at hstep with hfree
    cases hstep
    exact h.moveCommand ⟨rfl, rfl, rfl, rfl⟩ h.noDangling
      (Or.inr ⟨by simp [hfree], rfl⟩) (Or.inl ⟨rfl, fun _ => rfl⟩) fun hwaits => by cases hwaits
  case searching r locked =>
    obtain ⟨w, hw, rfl⟩ := Option.map_eq_some_iff.1 hstep
    obtain ⟨-, buffer, hfind⟩ :=
      WorkerThread.findReferencesInternal_spec h.noDangling r.requestId r.addresses classOf
    rw [hfind, Option.some.injEq] at hw
    subst hw
    refine h.moveCommand ⟨rfl, rfl, rfl, rfl⟩ (h.noDangling.visitAll _) ?_
      (Or.inl ⟨rfl, fun _ => rfl⟩) fun hwaits => by cases hwaits
    cases locked with
    | false => exact Or.inl ⟨rfl, by rw [hc]; rfl⟩
    | true =>
      have hown : s.gcMutex = some commandsThread := h.commands_mutex (by rw [hc]; rfl)
      exact Or.inr ⟨by simp [hown, commandsThread], rfl⟩
  case finishing =>
    cases hstep
    exact h.moveCommand ⟨rfl, rfl, rfl, rfl⟩ h.noDangling
      (Or.inl ⟨rfl, by rw [hc]; rfl⟩) (Or.inr (Or.inr rfl)) fun hwaits => by cases hwaits

/-- **Every step keeps the mutexes in the hands of those who can release them.** -/
theorem Held.step {s t : State} {a : Action} (h : Held s) (hstep : step s a = some t) :
    Held t := by
  cases a with
  | worker => exact h.workerStep hstep
  | onFrame =>
    cases hstep
    exact ⟨h.running, h.alive, h.noDangling, h.worker_mutex, h.commands_mutex, h.gc, h.readers,
      h.addAlloc, h.callbacks, h.waits⟩
  | alloc c klass obj size backtrace => exact h.allocStep hstep
  | command mem classOf => exact h.commandStep hstep
  | pause requestId =>
    simp only [Exclusion.step] at hstep
    cases hc : s.commands <;> simp only [hc, reduceCtorEq] at hstep
    split_ifs at hstep with hlock <;> cases hstep
    · exact h.moveCommand ⟨rfl, rfl, rfl, rfl⟩ h.noDangling (Or.inl ⟨rfl, by rw [hc]⟩)
        (Or.inl ⟨rfl, by simp [hc, CommandPc.inFindReferences]⟩) fun hwaits => by cases hwaits
    · exact h.moveCommand ⟨rfl, rfl, rfl, rfl⟩ h.noDangling (Or.inl ⟨rfl, by rw [hc]; rfl⟩)
        (Or.inl ⟨rfl, by simp [hc, CommandPc.inFindReferences]⟩) fun _ => by simpa using hlock
  | resume requestId =>
    simp only [Exclusion.step] at hstep
    cases hc : s.commands <;> simp only [hc, reduceCtorEq] at hstep
    cases hstep
    exact h.moveCommand ⟨rfl, rfl, rfl, rfl⟩ h.noDangling (Or.inl ⟨rfl, by rw [hc]⟩)
      (Or.inl ⟨rfl, by simp [hc, CommandPc.inFindReferences]⟩) fun _ => rfl
  | findReferences r =>
    simp only [Exclusion.step] at hstep
    cases hc : s.commands <;> simp only [hc, reduceCtorEq] at hstep
    cases hstep
    refine h.moveCommand ⟨rfl, rfl, rfl, rfl⟩ h.noDangling (Or.inl ⟨rfl, ?_⟩)
      (Or.inl ⟨rfl, by simp [hc, CommandPc.inFindReferences]⟩) ?_
    · rw [hc]
      dsimp only
      split_ifs <;> rfl
    · dsimp only
      split_ifs with hlock
      · exact fun hwaits => by cases hwaits
      · exact fun _ => by simpa using hlock

/-! ### The ways on -/

/-- What the threads meet: memory, classes, and for each callback the class, address, size and
callstack of its object. -/
structure Surroundings where
  mem : Memory
  classOf : ClassLookup
  objects : ℕ → MonoClass × UInt64 × UInt32 × List MonoMethod

/-- Steps of threads that are on their way: no callback, request or frame begins. -/
def Continues (e : Surroundings) (s : State) : Action → Prop
  | .worker => True
  | .alloc c klass obj size backtrace =>
    s.allocs c ≠ .notStarted ∧ e.objects c = (klass, obj, size, backtrace)
  | .command mem classOf => mem = e.mem ∧ classOf = e.classOf
  | _ => False

/-- The worker thread has seen an empty queue, which is empty still. -/
def QueueDone (s : State) : Prop :=
  s.pc = .loopHead ∧ s.thread.workItemsEmpty ∧ s.thread.workItems.pending = []

instance (s : State) : Decidable (QueueDone s) :=
  inferInstanceAs (Decidable (s.pc = .loopHead ∧ s.thread.workItemsEmpty = true ∧
    s.thread.workItems.pending = []))

/-- How far the worker thread is from the end of the queue. -/
def workerRank (s : State) : ℕ :=
  6 * s.thread.workItems.pending.length +
    match s.pc with
    | .returned => 0
    | .loopHead => if s.thread.workItemsEmpty ∧ s.thread.workItems.pending = [] then 0 else 6
    | .clearFlag => 5
    | .takeMutex => 4
    | .dequeue => 3
    | .setFlag => if s.thread.workItems.pending = [] then 2 else 8
    | .process _ => 8
    | .releaseMutex => if s.thread.workItemsEmpty ∧ s.thread.workItems.pending = [] then 1 else 7

/-- How far a callback is from its end. -/
def AllocPc.rank : AllocPc → ℕ
  | .notStarted | .returned => 0
  | .allocLocked => 5
  | .allocRead _ => 4
  | .allocShared _ => 3
  | .allocEnqueued => 2
  | .allocUnlocking => 1

/-- How far the callback with `m_add_alloc_mutex` is from its end. -/
def callbackRank (s : State) : ℕ :=
  match s.addAllocMutex with
  | some (.alloc c) => (s.allocs c).rank
  | _ => 0

/-- How many steps of its own the commands thread has left. -/
def CommandPc.rank : CommandPc → ℕ
  | .idle => 0
  | .pausing _ | .finishing => 1
  | .searching .. => 2
  | .searchLocking _ => 3
  | .choosing _ => 4
  | .collecting .. => 5
  | .gcLocking .. => 6
  | .waitingFlag .. => 7
  | .reading _ => 8
  | .findLocking _ => 9

section Ways

variable (e : Surroundings)

/-- **The worker thread gets to the end of the queue** when the commands thread leaves the mutex
alone, and nothing else changes on the way. -/
theorem canReach_drained {s : State} (h : Held s) (hfree : s.commands.holdsGc = false) :
    Run.CanReach step (Continues e)
      (fun t => (Held t ∧ t.commands = s.commands ∧ t.allocs = s.allocs ∧
        t.addAllocMutex = s.addAllocMutex ∧ t.thread.stopLock = s.thread.stopLock) ∧
        QueueDone t) s := by
  refine Run.canReach_of_rank workerRank (fun t ht hnot => ?_) ⟨h, rfl, rfl, rfl, rfl⟩
  obtain ⟨ht, hcommands, hallocs, hadd, hlock⟩ := ht
  have hwait : t.pc.holdsMutex = false → t.gcMutex = none := by
    intro hpc
    cases hgc : t.gcMutex with
    | none => rfl
    | some o =>
      rcases ht.gc o hgc with rfl | hholds
      · rw [ht.worker_mutex.1 hgc] at hpc
        cases hpc
      · rw [hcommands, hfree] at hholds
        cases hholds
  have hgo : ∀ u, Interleaving.workerStep t.loop = some u →
      workerRank { t with thread := u.thread, pc := u.pc, gcMutex := u.gcMutex } < workerRank t →
      Run.CanReach step (Continues e)
        (fun u => (Held u ∧ u.commands = s.commands ∧ u.allocs = s.allocs ∧
          u.addAllocMutex = s.addAllocMutex ∧ u.thread.stopLock = s.thread.stopLock) ∧
          workerRank u < workerRank t) t := by
    intro u hu hrank
    have hstep : step t .worker =
        some { t with thread := u.thread, pc := u.pc, gcMutex := u.gcMutex } := by
      rw [step, workerStep, hu, Option.map_some]
    refine Run.CanReach.single (a := .worker) trivial hstep ⟨⟨ht.step hstep, hcommands, hallocs,
      hadd, ?_⟩, hrank⟩
    exact (Interleaving.workerStep_stop hu).2.trans hlock
  cases hpc : t.pc with
  | returned => exact absurd hpc ht.alive
  | loopHead =>
    have hmore : ¬(t.thread.workItemsEmpty = true ∧ t.thread.workItems.pending = []) :=
      fun h => hnot ⟨hpc, h⟩
    refine hgo { t.loop with pc := .clearFlag } ?_ ?_
    · simp [Interleaving.workerStep, State.loop, hpc, ht.running]
    · simp [workerRank, State.loop, hpc, hmore]
  | clearFlag =>
    refine hgo { t.loop with
      thread := { t.thread with workItemsEmpty := false }, pc := .takeMutex } ?_ ?_
    · simp [Interleaving.workerStep, State.loop, hpc]
    · simp [workerRank, hpc]
  | takeMutex =>
    have hnone : t.gcMutex = none := hwait (by rw [hpc]; rfl)
    refine hgo { t.loop with gcMutex := some .worker, pc := .dequeue } ?_ ?_
    · simp [Interleaving.workerStep, State.loop, hpc, hnone]
    · simp [workerRank, State.loop, hpc]
  | dequeue =>
    cases hq : t.thread.workItems.tryDequeue with
    | none =>
      refine hgo { t.loop with pc := .setFlag } ?_ ?_
      · simp [Interleaving.workerStep, State.loop, hpc, hq]
      · simp [workerRank, State.loop, hpc, Fifo.tryDequeue_eq_none.1 hq]
    | some p =>
      obtain ⟨hpending, -, -⟩ := Fifo.tryDequeue_eq_some hq
      refine hgo { t.loop with
        thread := { t.thread with workItems := p.2 }, pc := .process p.1 } ?_ ?_
      · simp [Interleaving.workerStep, State.loop, hpc, hq]
      · simp only [workerRank, hpc, hpending, List.length_cons]
        omega
  | setFlag =>
    refine hgo { t.loop with
      thread := { t.thread with workItemsEmpty := true }, pc := .releaseMutex } ?_ ?_
    · simp [Interleaving.workerStep, State.loop, hpc]
    · by_cases hnil : t.thread.workItems.pending = [] <;> simp [workerRank, hpc, hnil]
  | process item =>
    obtain ⟨hqueue, -, -⟩ := t.thread.processItem_frame item
    refine hgo { t.loop with thread := t.thread.processItem item, pc := .releaseMutex } ?_ ?_
    · simp [Interleaving.workerStep, State.loop, hpc]
    · simp only [workerRank, hpc, hqueue]
      split_ifs <;> omega
  | releaseMutex =>
    refine hgo { t.loop with gcMutex := none, pc := .loopHead } ?_ ?_
    · simp [Interleaving.workerStep, State.loop, hpc]
    · simp only [workerRank, State.loop, hpc]
      split_ifs <;> omega

/-- **A callback gets to its end** when the app is not paused, and nothing else changes on the way
but the queue. -/
theorem canReach_returned {s : State} (h : Held s) (hlock : s.thread.stopLock = false) :
    Run.CanReach step (Continues e)
      (fun t => (Held t ∧ t.commands = s.commands ∧ t.thread.stopLock = false) ∧
        ∀ c, (t.allocs c).isRunning = false) s := by
  refine Run.canReach_of_rank callbackRank (fun t ht hnot => ?_) ⟨h, rfl, hlock⟩
  obtain ⟨ht, hcommands, hlock⟩ := ht
  rw [not_forall] at hnot
  obtain ⟨c, hc⟩ := hnot
  rw [Bool.not_eq_false] at hc
  have howner := ht.callbacks c hc
  obtain ⟨⟨klass, obj, size, backtrace⟩, hobject⟩ : ∃ o, e.objects c = o := ⟨_, rfl⟩
  have hgo : ∀ u p, allocStep t c klass obj size backtrace = some (setAlloc u c p) →
      u.commands = t.commands → u.thread.stopLock = t.thread.stopLock →
      (u.addAllocMutex = none ∨ u.addAllocMutex = some (.alloc c) ∧ p.rank < (t.allocs c).rank) →
      (t.allocs c).rank ≠ 0 →
      Run.CanReach step (Continues e)
        (fun u => (Held u ∧ u.commands = s.commands ∧ u.thread.stopLock = false) ∧
          callbackRank u < callbackRank t) t := by
    intro u p hstep hcommands' hlock' hrank hpos
    refine Run.CanReach.single (a := .alloc c klass obj size backtrace) ⟨?_, hobject⟩ hstep
      ⟨⟨ht.allocStep hstep, hcommands'.trans hcommands, hlock'.trans hlock⟩, ?_⟩
    · intro hnot
      rw [hnot] at hc
      cases hc
    · simp only [callbackRank, howner]
      rcases hrank with hnone | ⟨hsome, hlt⟩
      · rw [show (setAlloc u c p).addAllocMutex = none from hnone]
        exact Nat.pos_of_ne_zero hpos
      · rw [show (setAlloc u c p).addAllocMutex = some (.alloc c) from hsome]
        show ((setAlloc u c p).allocs c).rank < _
        rwa [show (setAlloc u c p).allocs c = p from Function.update_self ..]
  cases hpc : t.allocs c with
  | notStarted | returned =>
    rw [hpc] at hc
    cases hc
  | allocLocked =>
    refine hgo t (.allocRead t.frameIndex) ?_ rfl rfl (Or.inr ⟨howner, ?_⟩) ?_
    · simp [allocStep, hpc]
    · simp [hpc, AllocPc.rank]
    · simp [hpc, AllocPc.rank]
  | allocRead frame =>
    refine hgo { t with stopReaders := c :: t.stopReaders } (.allocShared frame) ?_ rfl rfl
      (Or.inr ⟨howner, ?_⟩) ?_
    · simp [allocStep, hpc, hlock]
    · simp [hpc, AllocPc.rank]
    · simp [hpc, AllocPc.rank]
  | allocShared frame =>
    refine hgo { t with thread := t.thread.addAllocationAsync frame klass obj size backtrace }
      .allocEnqueued ?_ rfl rfl (Or.inr ⟨howner, ?_⟩) ?_
    · simp [allocStep, hpc]
    · simp [hpc, AllocPc.rank]
    · simp [hpc, AllocPc.rank]
  | allocEnqueued =>
    refine hgo { t with stopReaders := t.stopReaders.filter (· ≠ c) } .allocUnlocking ?_ rfl rfl
      (Or.inr ⟨howner, ?_⟩) ?_
    · simp [allocStep, hpc]
    · simp [hpc, AllocPc.rank]
    · simp [hpc, AllocPc.rank]
  | allocUnlocking =>
    refine hgo { t with addAllocMutex := none } .returned ?_ rfl rfl (Or.inl rfl) ?_
    · simp [allocStep, hpc]
    · simp [hpc, AllocPc.rank]

/-- Nobody holds `m_gc_mutex` between two iterations of the worker loop. -/
theorem Held.gc_free {s : State} (h : Held s) (hpc : s.pc = .loopHead)
    (hcommands : s.commands.holdsGc = false) : s.gcMutex = none := by
  cases hgc : s.gcMutex with
  | none => rfl
  | some o =>
    rcases h.gc o hgc with rfl | hholds
    · have hholds := h.worker_mutex.1 hgc
      rw [hpc] at hholds
      cases hholds
    · rw [hcommands] at hholds
      cases hholds

/-- Nobody holds the mutexes of the callbacks when none is running. -/
theorem Held.callbacks_free {s : State} (h : Held s) (hnone : ∀ c, (s.allocs c).isRunning = false)
    (hcommands : s.commands.inFindReferences = false) :
    s.stopReaders = [] ∧ s.addAllocMutex = none := by
  constructor
  · rw [List.eq_nil_iff_forall_not_mem]
    intro c hc
    have hholds := h.readers c hc
    have hrunning := hnone c
    cases hp : s.allocs c <;> rw [hp] at hholds hrunning
    case allocShared => simp [AllocPc.isRunning] at hrunning
    case allocEnqueued => simp [AllocPc.isRunning] at hrunning
    all_goals cases hholds
  · cases hadd : s.addAllocMutex with
    | none => rfl
    | some o =>
      rcases h.addAlloc o hadd with ⟨-, hfind⟩ | ⟨c, -, hc⟩
      · rw [hcommands] at hfind
        cases hfind
      · rw [hnone c] at hc
        cases hc

/-- The worker thread gets to where the commands thread does not wait for it any more. -/
theorem canReach_gcFree {s : State} (h : Held s) (hfree : s.commands.holdsGc = false) :
    Run.CanReach step (Continues e)
      (fun t => Held t ∧ t.commands = s.commands ∧ t.gcMutex = none ∧ t.thread.workItemsEmpty)
      s := by
  refine (canReach_drained e h hfree).mono (fun _ _ => id) ?_
  rintro t ⟨⟨ht, hcommands, -⟩, hpc, hflag, -⟩
  exact ⟨ht, hcommands, ht.gc_free hpc (hcommands ▸ hfree), hflag⟩

/-- So do the callbacks. -/
theorem canReach_callbacksFree {s : State} (h : Held s) (hwaits : s.commands.waitsForCallbacks)
    (hfind : s.commands.inFindReferences = false) :
    Run.CanReach step (Continues e)
      (fun t => Held t ∧ t.commands = s.commands ∧ t.stopReaders = [] ∧ t.addAllocMutex = none)
      s := by
  refine (canReach_returned e h (h.waits hwaits)).mono (fun _ _ => id) ?_
  rintro t ⟨⟨ht, hcommands, -⟩, hnone⟩
  obtain ⟨hreaders, hadd⟩ := ht.callbacks_free hnone (hcommands ▸ hfind)
  exact ⟨ht, hcommands, hreaders, hadd⟩

/-- **Every request can be answered**, in a paused app, too. -/
theorem canReach_idle {s : State} (h : Held s) :
    Run.CanReach step (Continues e) (fun t => Held t ∧ t.commands = .idle) s := by
  refine Run.canReach_of_rank (fun s => s.commands.rank) (fun s h hnot => ?_) h
  have hgo : ∀ {u v}, Held u → commandStep u e.mem e.classOf = some v →
      v.commands.rank < s.commands.rank →
      Run.CanReach step (Continues e)
        (fun t => Held t ∧ t.commands.rank < s.commands.rank) u :=
    fun hu hstep hrank => Run.CanReach.single (a := .command e.mem e.classOf) ⟨rfl, rfl⟩ hstep
      ⟨hu.commandStep hstep, hrank⟩
  -- the thread the commands thread waits for goes first
  have hgc := canReach_gcFree e h
  have hcallbacks := canReach_callbacksFree e h
  cases hc : s.commands with
  | idle => exact absurd hc hnot
  | pausing id =>
    rw [hc] at hcallbacks hgo
    refine (hcallbacks rfl rfl).trans fun t ht => ?_
    obtain ⟨ht, hcommands, hreaders, -⟩ := ht
    refine hgo (v := { t with
      thread := t.thread.pauseApp id, commands := .idle }) ht ?_ (by simp [CommandPc.rank])
    simp [commandStep, hcommands, hreaders]
  | findLocking r =>
    rw [hc] at hcallbacks hgo
    refine (hcallbacks rfl rfl).trans fun t ht => ?_
    obtain ⟨ht, hcommands, -, hadd⟩ := ht
    refine hgo (v := { t with
      addAllocMutex := some .commands, commands := .reading r }) ht ?_ (by simp [CommandPc.rank])
    simp [commandStep, hcommands, hadd]
  | reading r =>
    rw [hc] at hgo
    by_cases hframe : s.frameIndex > s.thread.lastGcFrame
    · exact hgo (v := { s with commands := .waitingFlag r s.frameIndex }) h
        (by simp [commandStep, hc, hframe]) (by simp [CommandPc.rank])
    · exact hgo (v := { s with commands := .choosing r }) h
        (by simp [commandStep, hc, hframe]) (by simp [CommandPc.rank])
  | waitingFlag r frame =>
    rw [hc] at hgc hgo
    refine (hgc rfl).trans fun t ht => ?_
    obtain ⟨ht, hcommands, -, hflag⟩ := ht
    refine hgo (v := { t with commands := .gcLocking r frame }) ht ?_ (by simp [CommandPc.rank])
    simp [commandStep, hcommands, hflag]
  | gcLocking r frame =>
    rw [hc] at hgc hgo
    refine (hgc rfl).trans fun t ht => ?_
    obtain ⟨ht, hcommands, hnone, -⟩ := ht
    refine hgo (v := { t with
      gcMutex := some commandsThread, commands := .collecting r frame }) ht ?_
      (by simp [CommandPc.rank])
    simp [commandStep, hcommands, hnone]
  | collecting r frame =>
    rw [hc] at hgo
    exact hgo (v := { s with
      thread := s.thread.doGcSync frame true e.mem, gcMutex := none, commands := .choosing r }) h
      (by simp [commandStep, hc]) (by simp [CommandPc.rank])
  | choosing r =>
    rw [hc] at hgo
    cases hlock : s.thread.stopLock with
    | true =>
      exact hgo (v := { s with commands := .searching r false }) h
        (by simp [commandStep, hc, hlock]) (by simp [CommandPc.rank])
    | false =>
      exact hgo (v := { s with commands := .searchLocking r }) h
        (by simp [commandStep, hc, hlock]) (by simp [CommandPc.rank])
  | searchLocking r =>
    rw [hc] at hgc hgo
    refine (hgc rfl).trans fun t ht => ?_
    obtain ⟨ht, hcommands, hnone, -⟩ := ht
    refine hgo (v := { t with
      gcMutex := some commandsThread, commands := .searching r true }) ht ?_
      (by simp [CommandPc.rank])
    simp [commandStep, hcommands, hnone]
  | searching r locked =>
    rw [hc] at hgo
    obtain ⟨-, buffer, hfind⟩ :=
      WorkerThread.findReferencesInternal_spec h.noDangling r.requestId r.addresses e.classOf
    refine hgo h (by simp only [commandStep, hc, hfind, Option.map_some]; rfl) ?_
    simp [CommandPc.rank]
  | finishing =>
    rw [hc] at hgo
    refine hgo h (by simp only [commandStep, hc]; rfl) ?_
    simp [CommandPc.rank]

end Ways

/-! ### Every thread gets on -/

/-- Nothing is going on. -/
structure Settled (s : State) : Prop where
  idle : s.commands = .idle
  unpaused : s.thread.stopLock = false
  callbacks : ∀ c, s.allocs c = .notStarted ∨ s.allocs c = .returned
  queue : QueueDone s
  free : s.gcMutex = none ∧ s.addAllocMutex = none ∧ s.stopReaders = []

/-- A paused app is resumed. -/
def Resumes (s : State) : Action → Prop
  | .resume _ => s.thread.stopLock
  | _ => False

theorem canReach_settled (e : Surroundings) {s : State} (h : Held s)
    (hidle : s.commands = .idle) (hlock : s.thread.stopLock = false) :
    Run.CanReach step (Continues e) Settled s := by
  refine (canReach_returned e h hlock).trans fun t ht => ?_
  obtain ⟨⟨ht, hcommands, hlock'⟩, hnone⟩ := ht
  rw [hidle] at hcommands
  refine (canReach_drained e ht (by rw [hcommands]; rfl)).mono (fun _ _ => id) ?_
  rintro u ⟨⟨hu, hcommands', hallocs, -, hlock''⟩, hqueue⟩
  rw [hcommands] at hcommands'
  rw [← hallocs] at hnone
  obtain ⟨hreaders, hadd⟩ := hu.callbacks_free hnone (by rw [hcommands']; rfl)
  refine ⟨hcommands', hlock''.trans hlock', fun c => ?_, hqueue,
    hu.gc_free hqueue.1 (by rw [hcommands']; rfl), hadd, hreaders⟩
  have hc := hnone c
  cases hp : u.allocs c <;> rw [hp] at hc
  case notStarted => exact Or.inl rfl
  case returned => exact Or.inr rfl
  all_goals simp [AllocPc.isRunning] at hc

/-- **No deadlock.**  In every state that the threads can get into, whatever the memory looks like,
the current request can be answered although the app may be paused, and everything can come to its
end, where the app is resumed if it is paused. -/
theorem settles_of_run {l : List Action} {s : State} (hrun : Run.run step {} l = some s)
    (e : Surroundings) :
    Run.CanReach step (Continues e) (fun t => t.commands = .idle) s ∧
      Run.CanReach step (fun t a => Continues e t a ∨ Resumes t a) Settled s := by
  have h : Held s :=
    Run.reachable_invariant (fun _ _ _ h hstep => h.step hstep) Held.initial ⟨l, hrun⟩
  have hidle := canReach_idle e h
  refine ⟨hidle.mono (fun _ _ => id) fun t ht => ht.2, ?_⟩
  refine (hidle.mono (fun _ _ => Or.inl) fun t ht => ht).trans fun t ht => ?_
  obtain ⟨ht, hcommands⟩ := ht
  cases hlock : t.thread.stopLock with
  | false =>
    exact (canReach_settled e ht hcommands hlock).mono (fun _ _ => Or.inl) fun _ => id
  | true =>
    have hstep : step t (.resume 0) = some { t with thread := t.thread.resumeApp 0 } := by
      rw [step, hcommands]
    refine Run.CanReach.cons (a := .resume 0) (Or.inr hlock) hstep ?_
    exact (canReach_settled e (ht.step hstep) hcommands rfl).mono (fun _ _ => Or.inl)
      fun _ => id

/-- A callback waits for the end of a pause, and a search is under way. -/
theorem settles_of_run_paused : ∃ s,
    Run.run step {} ([.alloc 0 ⟨none, .empty⟩ 16 8 [], .alloc 0 ⟨none, .empty⟩ 16 8 []] ++
      pausedSearch) = some s ∧
    Run.CanReach step (Continues (.mk (fun _ => none) (fun _ => none) fun _ =>
      (⟨none, .empty⟩, 16, 8, []))) (fun t => t.commands = .idle) s :=
  ⟨_, rfl, (settles_of_run (l := [.alloc 0 ⟨none, .empty⟩ 16 8 [],
    .alloc 0 ⟨none, .empty⟩ 16 8 []] ++ pausedSearch) rfl _).1⟩

end Exclusion

end Owlcat
