import OwlcatMonoProfiler.Server.Runs

/-!
# The profiler object and its roots

`mono_profiler::start` and the root callbacks of `server/src/mono_profiler.cpp`.  The list of root
areas is a member of the worker thread, and a restart makes a new worker thread.

* `MonoProfiler`, `start`, `onRootRegister`, `onRootUnregister`;
* `Op`, `step`: what happens to the profiler; callbacks come once they are installed;
* `standing`: the areas that were registered and not unregistered since;
* `rootsTracked_iff`: these are the areas the next collection scans exactly when the last restart
  has lost none of them.
-/

namespace Owlcat

/-- `mono_profiler::details` -/
structure MonoProfiler where
  started : Bool := false
  processingThread : Option WorkerThread := none

namespace MonoProfiler

/-- A new worker thread, with the old one's events sink. -/
def newWorkerThread (old : Option WorkerThread) : WorkerThread :=
  { eventsSink := old.elim [] WorkerThread.eventsSink }

/-- `try_restart_profiling`: the worker thread is stopped and another one takes its place. -/
def tryRestartProfiling (p : MonoProfiler) : Bool × MonoProfiler :=
  if p.started then
    let stopped := p.processingThread.map fun w => w.requestStop.doWork
    (true, { p with processingThread := some (newWorkerThread stopped) })
  else (false, p)

/-- `init`, as far as it concerns the members; from now on there are callbacks. -/
def init (p : MonoProfiler) : MonoProfiler :=
  { p with processingThread := some (newWorkerThread p.processingThread) }

/-- `start`; `found` says that Mono and all of its functions are found. -/
def start (p : MonoProfiler) (found : Bool) : Bool × MonoProfiler :=
  let r := p.tryRestartProfiling
  if r.1 then (true, r.2)
  else if found then (true, { p.init with started := true })
  else (false, p)

/-- `on_root_register`; the callback does not call it for stacks and finalizer queues. -/
def onRootRegister (p : MonoProfiler) (start size : UInt64) : Option MonoProfiler :=
  p.processingThread.map fun w => { p with processingThread := some (w.registerRoot start size) }

/-- `on_root_unregister` -/
def onRootUnregister (p : MonoProfiler) (start : UInt64) : Option MonoProfiler :=
  p.processingThread.map fun w => { p with processingThread := some (w.unregisterRoot start) }

/-- Calls of `start` and of the root callbacks. -/
inductive Op
  | start (found : Bool)
  | rootRegister (start size : UInt64)
  | rootUnregister (start : UInt64)
  deriving DecidableEq

def step (p : MonoProfiler) : Op → Option MonoProfiler
  | .start found => some (p.start found).2
  | .rootRegister start size => p.onRootRegister start size
  | .rootUnregister start => p.onRootUnregister start

/-! ### The areas that are registered -/

/-- One more call. -/
def standingStep (areas : List RootInfo) : Op → List RootInfo
  | .start _ => areas
  | .rootRegister start size => areas ++ [⟨start, size⟩]
  | .rootUnregister start => areas.filter fun r => r.start != start

/-- The areas that were registered and whose start was not unregistered since. -/
def standing (ops : List Op) : List RootInfo := ops.foldl standingStep []

theorem standing_append_singleton (ops : List Op) (op : Op) :
    standing (ops ++ [op]) = standingStep (standing ops) op := by
  rw [standing, List.foldl_append]
  rfl

/-- An area stands after more calls if it stood before and was not unregistered, or stands by
them. -/
theorem mem_standing_append {ops ops' : List Op} {r : RootInfo} :
    r ∈ standing (ops ++ ops') ↔
      (r ∈ standing ops ∧ Op.rootUnregister r.start ∉ ops') ∨ r ∈ standing ops' := by
  induction ops' using List.reverseRecOn with
  | nil => simp [standing]
  | append_singleton ops' op ih =>
    rw [← List.append_assoc, standing_append_singleton, standing_append_singleton]
    cases op with
    | start found =>
      simp only [standingStep, ih, List.mem_append, List.mem_singleton, reduceCtorEq, or_false]
    | rootRegister start size =>
      simp only [standingStep, List.mem_append, List.mem_singleton, ih, reduceCtorEq, or_false,
        or_assoc]
    | rootUnregister start =>
      simp only [standingStep, List.mem_filter, ih, List.mem_append, List.mem_singleton,
        Op.rootUnregister.injEq, bne_iff_ne, not_or]
      tauto

/-! ### The areas that are scanned -/

/-- The root areas of the worker thread. -/
def roots (p : MonoProfiler) : List RootInfo := p.processingThread.elim [] WorkerThread.roots

/-- Without a restart the worker thread follows the registrations. -/
theorem roots_run {p p' : MonoProfiler} {ops : List Op} (before : List Op)
    (h : p.roots = standing before) (hops : ∀ found, Op.start found ∉ ops)
    (hrun : Run.run step p ops = some p') : p'.roots = standing (before ++ ops) := by
  induction ops generalizing p before with
  | nil => cases hrun; simpa using h
  | cons op ops ih =>
    obtain ⟨p₁, hp₁, hrun⟩ := Option.bind_eq_some_iff.1 hrun
    rw [List.append_cons]
    refine ih (before ++ [op]) ?_ (fun found hmem => hops found (List.mem_cons_of_mem _ hmem)) hrun
    rw [standing_append_singleton, ← h]
    cases op with
    | start found => exact absurd List.mem_cons_self (hops found)
    | rootRegister start size =>
      obtain ⟨w, hw, rfl⟩ := Option.map_eq_some_iff.1 hp₁
      simp [roots, hw, standingStep, WorkerThread.registerRoot]
    | rootUnregister start =>
      obtain ⟨w, hw, rfl⟩ := Option.map_eq_some_iff.1 hp₁
      simp [roots, hw, standingStep, WorkerThread.unregisterRoot]

/-- There is a worker thread only once the profiler has started. -/
def ThreadStarted (p : MonoProfiler) : Prop := p.processingThread = none ∨ p.started = true

theorem ThreadStarted.step {p p' : MonoProfiler} {op : Op} (h : p.ThreadStarted)
    (hstep : p.step op = some p') : p'.ThreadStarted := by
  cases op with
  | start found =>
    cases hstep
    unfold start tryRestartProfiling
    cases hstarted : p.started with
    | true => exact Or.inr rfl
    | false =>
      cases found with
      | true => exact Or.inr rfl
      | false => exact h
  | rootRegister start size =>
    obtain ⟨w, hw, rfl⟩ := Option.map_eq_some_iff.1 hstep
    exact Or.inr (h.resolve_left (by simp [hw]))
  | rootUnregister start =>
    obtain ⟨w, hw, rfl⟩ := Option.map_eq_some_iff.1 hstep
    exact Or.inr (h.resolve_left (by simp [hw]))

/-- After a start nothing is scanned: the worker thread is new, or there is none. -/
theorem roots_start {p : MonoProfiler} (h : p.ThreadStarted) (found : Bool) :
    (p.start found).2.roots = [] := by
  unfold start tryRestartProfiling
  cases hstarted : p.started with
  | true => rfl
  | false =>
    cases found with
    | true => rfl
    | false =>
      have hnone : p.processingThread = none := h.resolve_right (by simp [hstarted])
      simp [roots, hnone]

/-- So only the calls since the last start count. -/
theorem roots_of_last_start {pre post : List Op} {found : Bool} {p : MonoProfiler}
    (hrun : Run.run step {} (pre ++ .start found :: post) = some p)
    (hpost : ∀ found, Op.start found ∉ post) : p.roots = standing post := by
  rw [Run.run_append] at hrun
  obtain ⟨p₀, hp₀, hrun⟩ := Option.bind_eq_some_iff.1 hrun
  have hthread : p₀.ThreadStarted :=
    Run.reachable_invariant (fun _ _ _ h hstep => h.step hstep) (Or.inl rfl) ⟨pre, hp₀⟩
  exact roots_run [] (roots_start hthread found) hpost hrun

/-- A list of calls has a last start, or none. -/
theorem exists_last_start (ops : List Op) :
    (∀ found, Op.start found ∉ ops) ∨
      ∃ pre found post, ops = pre ++ .start found :: post ∧ ∀ found, Op.start found ∉ post := by
  induction ops with
  | nil => exact Or.inl fun _ => List.not_mem_nil
  | cons op ops ih =>
    rcases ih with hnone | ⟨pre, found, post, rfl, hpost⟩
    · cases op with
      | start found => exact Or.inr ⟨[], found, ops, rfl, hnone⟩
      | rootRegister start size =>
        exact Or.inl fun found hmem => hnone found (by simpa using hmem)
      | rootUnregister start =>
        exact Or.inl fun found hmem => hnone found (by simpa using hmem)
    · exact Or.inr ⟨op :: pre, found, post, rfl, hpost⟩

/-- An area that stands at the last start is unregistered or registered again after it. -/
def KeptByRestart (ops : List Op) : Prop :=
  ∀ pre found post, ops = pre ++ .start found :: post → (∀ found, Op.start found ∉ post) →
    ∀ r ∈ standing pre, Op.rootUnregister r.start ∉ post → r ∈ standing post

/-- **The scanned areas are the registered ones exactly when no restart has lost any.** -/
theorem rootsTracked_iff {ops : List Op} {p : MonoProfiler}
    (hrun : Run.run step {} ops = some p) :
    (∀ r, r ∈ p.roots ↔ r ∈ standing ops) ↔ KeptByRestart ops := by
  constructor
  · rintro htracked pre found post rfl hpost r hr hkept
    rw [← roots_of_last_start hrun hpost, htracked, mem_standing_append]
    exact Or.inl ⟨hr, by simpa using hkept⟩
  · intro hkept r
    rcases exists_last_start ops with hnone | ⟨pre, found, post, rfl, hpost⟩
    · rw [roots_run [] rfl hnone hrun, List.nil_append]
    · rw [roots_of_last_start hrun hpost, mem_standing_append]
      refine ⟨Or.inr, ?_⟩
      rintro (⟨hr, hmem⟩ | hr)
      · exact hkept pre found post rfl hpost r hr (by simpa using hmem)
      · exact hr

/-- With one start only, the area that is registered after it is scanned. -/
theorem rootsTracked_iff_oneStart :
    ∃ p, Run.run step {} [.start true, .rootRegister 100 8] = some p ∧
      ((∀ r, r ∈ p.roots ↔ r ∈ standing [.start true, .rootRegister 100 8]) ↔
        KeptByRestart [.start true, .rootRegister 100 8]) :=
  ⟨_, rfl, rootsTracked_iff rfl⟩

/-- A restart loses the area that was registered before it. -/
theorem roots_lost_by_restart :
    ∃ p, Run.run step {} [.start true, .rootRegister 100 8, .start true] = some p ∧
      ¬ ∀ r, r ∈ p.roots ↔
        r ∈ standing [.start true, .rootRegister 100 8, .start true] :=
  ⟨_, rfl, fun h => absurd ((h ⟨100, 8⟩).2 (by decide)) List.not_mem_nil⟩

end MonoProfiler

end Owlcat
