import OwlcatMonoProfiler.Server.Interleaving

/-!
# A worker that has stopped

`do_gc_sync` waits for a flag that only the worker thread sets.  The worker thread clears the flag
at the beginning of an iteration, sets it again when the queue is empty, and may leave the loop
after any iteration.

* `LeavesFlagDown`: nothing before the next look at the stop request sets the flag;
* `StopsCleanly`: the stop request does not come at such a point, and the iteration it comes into
  finds the queue empty;
* `flag_of_returned_iff`: then, and only then, the flag is up after the loop, and no call waits in
  vain;
* `stopped_worker_hangs`: a stop while an item is being processed.
-/

namespace Owlcat

namespace Interleaving

/-- The flag is down, or is sure to be, when the worker thread looks at the stop request again. -/
def WorkerPc.leavesFlagDown : WorkerPc → Bool → Bool
  | .process _, _ => true
  | .loopHead, empty | .releaseMutex, empty | .returned, empty => !empty
  | .clearFlag, _ | .takeMutex, _ | .dequeue, _ | .setFlag, _ => false

def State.LeavesFlagDown (s : State) : Prop := s.pc.leavesFlagDown s.thread.workItemsEmpty

/-- The condition under which a stop leaves the flag up. -/
def StopsCleanly (s : State) : Action → Prop
  | .stop => ¬ s.LeavesFlagDown
  | .worker => s.thread.stop → s.pc = .dequeue → s.thread.workItems.pending = []
  | _ => True

instance (s : State) : Decidable s.LeavesFlagDown :=
  inferInstanceAs (Decidable (s.pc.leavesFlagDown s.thread.workItemsEmpty = true))

instance (s : State) : ∀ a, Decidable (StopsCleanly s a)
  | .stop => inferInstanceAs (Decidable (¬ s.LeavesFlagDown))
  | .worker =>
    inferInstanceAs (Decidable
      (s.thread.stop → s.pc = .dequeue → s.thread.workItems.pending = []))
  | .enqueue .. | .startGc .. | .readFlag _ | .takeMutex _ | .collect .. => .isTrue trivial

/-! ### What a step does to flag and stop request -/

/-- The other threads leave worker thread and flag where they are, and only a stop request changes
the stop request. -/
theorem step_of_ne_worker {s t : State} {a : Action} (h : step s a = some t) (ha : a ≠ .worker) :
    t.pc = s.pc ∧ t.thread.workItemsEmpty = s.thread.workItemsEmpty ∧
      (a ≠ .stop → t.thread.stop = s.thread.stop) := by
  cases move h with
  | worker => exact absurd rfl ha
  | collect c call mem hc =>
    refine ⟨rfl, WorkerThread.doGcSync_workItemsEmpty .., fun _ => ?_⟩
    exact WorkerThread.doGcSync_stop ..
  | stop => exact ⟨rfl, rfl, fun hstop => absurd rfl hstop⟩
  | _ => exact ⟨rfl, rfl, fun _ => rfl⟩

/-- What the loop of the worker thread keeps: the flag stays down from the beginning of an iteration
to its end or to a failed dequeue, and the loop is left when a stop is requested. -/
structure LoopInv (s : State) : Prop where
  flag_cleared : s.pc.flagCleared → s.thread.workItemsEmpty = false
  stopped : s.pc = .returned → s.thread.stop = true

theorem LoopInv.initial : LoopInv initial := ⟨by decide, by decide⟩

/-- One step of a worker thread that has been told to stop: it gives up the chance to set the flag
by dequeuing an item. -/
theorem LoopInv.workerStep {s t : State} (h : LoopInv s) (hstep : workerStep s = some t) :
    LoopInv t ∧ (s.thread.stop = true → (t.LeavesFlagDown ↔
      s.LeavesFlagDown ∨ s.pc = .dequeue ∧ s.thread.workItems.pending ≠ [])) := by
  have hdown : ∀ t : State, t.LeavesFlagDown ↔ t.pc.leavesFlagDown t.thread.workItemsEmpty = true :=
    fun _ => Iff.rfl
  rw [hdown, hdown]
  cases workerMove hstep with
  | exit hpc hstop =>
    refine ⟨⟨by simp [WorkerPc.flagCleared], fun _ => hstop⟩, fun _ => ?_⟩
    simp [WorkerPc.leavesFlagDown, hpc, WorkerThread.cleanUp]
  | iterate hpc hstop =>
    exact ⟨⟨by simp [WorkerPc.flagCleared], by simp⟩, fun h => by simp [hstop] at h⟩
  | clearFlag hpc =>
    refine ⟨⟨fun _ => rfl, by simp⟩, fun _ => ?_⟩
    simp [WorkerPc.leavesFlagDown, hpc]
  | takeMutex hpc =>
    refine ⟨⟨fun _ => h.flag_cleared (by rw [hpc]; rfl), by simp⟩, fun _ => ?_⟩
    simp [WorkerPc.leavesFlagDown, hpc]
  | dequeueFails hpc hnil =>
    refine ⟨⟨fun _ => h.flag_cleared (by rw [hpc]; rfl), by simp⟩, fun _ => ?_⟩
    simp [WorkerPc.leavesFlagDown, hpc, hnil]
  | dequeue item q hpc hq =>
    obtain ⟨hpending, -⟩ := Fifo.tryDequeue_eq_some hq
    refine ⟨⟨fun _ => h.flag_cleared (by rw [hpc]; rfl), by simp⟩, fun _ => ?_⟩
    simp [WorkerPc.leavesFlagDown, hpc, hpending]
  | setFlag hpc =>
    refine ⟨⟨by simp [WorkerPc.flagCleared], by simp⟩, fun _ => ?_⟩
    simp [WorkerPc.leavesFlagDown, hpc]
  | process item hpc =>
    have hflag := h.flag_cleared (by rw [hpc]; rfl)
    obtain ⟨-, hempty, -⟩ := s.thread.processItem_frame item
    refine ⟨⟨by simp [WorkerPc.flagCleared], by simp⟩, fun _ => ?_⟩
    simp [WorkerPc.leavesFlagDown, hpc, hempty, hflag]
  | releaseMutex hpc =>
    refine ⟨⟨by simp [WorkerPc.flagCleared], by simp⟩, fun _ => ?_⟩
    simp [WorkerPc.leavesFlagDown, hpc]

theorem LoopInv.step {s t : State} {a : Action} (h : LoopInv s) (hstep : step s a = some t) :
    LoopInv t := by
  by_cases ha : a = .worker
  · subst ha
    exact (h.workerStep hstep).1
  · obtain ⟨hpc, hflag, hstop⟩ := step_of_ne_worker hstep ha
    refine ⟨fun hc => ?_, fun hr => ?_⟩
    · rw [hflag]
      exact h.flag_cleared (hpc ▸ hc)
    · have hs := h.stopped (hpc ▸ hr)
      by_cases ha' : a = .stop
      · subst ha'
        cases hstep
        rfl
      · rw [hstop ha', hs]

/-! ### Runs -/

/-- The worker thread has been told to stop, and will leave the loop with the flag down. -/
def State.Doomed (s : State) : Prop := s.thread.stop = true ∧ s.LeavesFlagDown

theorem LoopInv.doomed_iff {s t : State} {a : Action} (h : LoopInv s)
    (hstep : Interleaving.step s a = some t) : t.Doomed ↔ s.Doomed ∨ ¬ StopsCleanly s a := by
  by_cases ha : a = .worker
  · subst ha
    have hstop : t.thread.stop = s.thread.stop := (workerStep_stop hstep).1
    have hdown := (h.workerStep hstep).2
    simp only [State.Doomed, hstop, StopsCleanly, Classical.not_imp]
    constructor
    · rintro ⟨hs, ht⟩
      rcases (hdown hs).1 ht with hs' | hs'
      · exact Or.inl ⟨hs, hs'⟩
      · exact Or.inr ⟨hs, hs'⟩
    · rintro (⟨hs, hs'⟩ | ⟨hs, hs'⟩)
      · exact ⟨hs, (hdown hs).2 (Or.inl hs')⟩
      · exact ⟨hs, (hdown hs).2 (Or.inr hs')⟩
  · obtain ⟨hpc, hflag, hstop⟩ := step_of_ne_worker hstep ha
    have hdown : t.LeavesFlagDown ↔ s.LeavesFlagDown := by
      rw [State.LeavesFlagDown, hpc, hflag, State.LeavesFlagDown]
    cases a with
    | worker => exact absurd rfl ha
    | stop =>
      cases hstep
      simp only [State.Doomed, StopsCleanly, not_not]
      constructor
      · exact fun ht => Or.inr (hdown.1 ht.2)
      · exact fun hs => ⟨rfl, hdown.2 (hs.elim And.right id)⟩
    | _ => simp only [State.Doomed, hstop (by simp), hdown, StopsCleanly, not_true, or_false]

/-- Once the loop is left, nothing moves the flag. -/
theorem flag_of_reachable {s t : State} (hpc : s.pc = .returned) (h : Run.Reachable step s t) :
    t.pc = .returned ∧ t.thread.workItemsEmpty = s.thread.workItemsEmpty := by
  refine Run.reachable_invariant (I := fun t => t.pc = .returned ∧
    t.thread.workItemsEmpty = s.thread.workItemsEmpty) ?_ ⟨hpc, rfl⟩ h
  rintro t a u ⟨ht, hflag⟩ hstep
  have ha : a ≠ .worker := by
    rintro rfl
    simp [step, workerStep, ht] at hstep
  obtain ⟨hpc', hflag', -⟩ := step_of_ne_worker hstep ha
  exact ⟨hpc'.trans ht, hflag'.trans hflag⟩

/-- The flag is up and stays up, and a call of `do_gc_sync` that waits for it waits no longer than
until its next look. -/
def State.ReleasesCalls (s : State) : Prop :=
  ∀ t, Run.Reachable step s t → t.thread.workItemsEmpty = true ∧
    ∀ c call, t.calls c = .waiting call →
      ∃ u, step t (.readFlag c) = some u ∧ u.calls c = .entering call

theorem releasesCalls_iff {s : State} (hpc : s.pc = .returned) :
    s.ReleasesCalls ↔ s.thread.workItemsEmpty = true := by
  constructor
  · exact fun h => (h s ⟨[], rfl⟩).1
  · intro hflag t ht
    have hflag' : t.thread.workItemsEmpty = true := (flag_of_reachable hpc ht).2.trans hflag
    refine ⟨hflag', fun c call hc => ⟨setCall t c (.entering call), ?_, ?_⟩⟩
    · simp only [step, hc, hflag', if_true]
    · exact Function.update_self ..

/-- **A stopped worker thread hangs no call exactly when it was stopped cleanly**: in every
interleaving that ends outside of the loop, the flag is up for good if and only if no stop came
while the flag was sure to stay down, and no item was dequeued after a stop. -/
theorem releasesCalls_of_returned_iff {l : List Action} {s : State}
    (hrun : Run.run step initial l = some s) (hpc : s.pc = .returned) :
    s.ReleasesCalls ↔ Run.Along step StopsCleanly initial l := by
  have hinv : LoopInv s :=
    Run.reachable_invariant (fun _ _ _ h hstep => h.step hstep) LoopInv.initial ⟨l, hrun⟩
  have hdoomed : s.Doomed ↔ initial.Doomed ∨ ¬ Run.Along step StopsCleanly initial l :=
    Run.latched_iff (fun _ _ _ h hstep => h.step hstep) (fun _ _ _ h hstep => h.doomed_iff hstep)
      LoopInv.initial hrun
  have hinitial : ¬ initial.Doomed := fun h => Bool.noConfusion h.1
  have hdown : s.Doomed ↔ s.thread.workItemsEmpty = false := by
    simp [State.Doomed, State.LeavesFlagDown, WorkerPc.leavesFlagDown, hpc, hinv.stopped hpc]
  rw [releasesCalls_iff hpc, ← Bool.not_eq_false, ← hdown, hdoomed, not_or, not_not]
  exact and_iff_right hinitial

/-- The stop comes before the dequeue that finds the queue empty. -/
def idleStop : List Action := [.worker, .worker, .stop] ++ List.replicate 5 .worker

theorem releasesCalls_idleStop :
    ∃ s, Run.run step initial idleStop = some s ∧ s.ReleasesCalls := by
  refine ⟨_, rfl, ?_⟩
  exact (@releasesCalls_of_returned_iff idleStop _ rfl rfl).2 (by decide)

/-- While the flag is down, a waiting call waits, whatever happens. -/
theorem waiting_step {s t : State} {a : Action} {c : ℕ} {call : GcCall}
    (hflag : s.thread.workItemsEmpty = false) (hpc : s.pc = .returned)
    (hc : s.calls c = .waiting call) (hstep : step s a = some t) : t.calls c = .waiting call := by
  have hother : ∀ d p, s.calls d ≠ .waiting call → (setCall s d p).calls c = .waiting call := by
    intro d p hd
    have hne : c ≠ d := by
      rintro rfl
      exact hd hc
    simpa only [setCall, Function.update_of_ne hne] using hc
  cases move hstep with
  | worker => simp [step, workerStep, hpc] at hstep
  | startGc d _ _ hd => exact hother d _ (by simp [hd])
  | seeFlag d _ _ hflag' =>
    rw [hflag] at hflag'
    cases hflag'
  | takeMutex d _ hd => exact hother d _ (by simp [hd])
  | collect d _ _ hd => exact hother d _ (by simp [hd])
  | enqueue | wait | stop => exact hc

theorem waiting_of_reachable {s t : State} {c : ℕ} {call : GcCall} (hpc : s.pc = .returned)
    (hflag : s.thread.workItemsEmpty = false) (hc : s.calls c = .waiting call)
    (h : Run.Reachable step s t) : t.calls c = .waiting call := by
  refine (Run.reachable_invariant (I := fun t : State => t.pc = .returned ∧
    t.thread.workItemsEmpty = false ∧ t.calls c = .waiting call) ?_ ⟨hpc, hflag, hc⟩ h).2.2
  rintro s a u ⟨hpc, hflag, hc⟩ hstep
  have hreach : Run.Reachable step s u := ⟨[a], by rw [Run.run_cons, hstep]; rfl⟩
  obtain ⟨hpc', hflag'⟩ := flag_of_reachable hpc hreach
  exact ⟨hpc', hflag'.trans hflag, waiting_step hflag hpc hc hstep⟩

/-- The worker thread is stopped while it processes an allocation, and a collection starts when it
has left the loop. -/
def busyStop : List Action :=
  [.enqueue 1 ⟨none, .empty⟩ 16 8 []] ++ List.replicate 4 .worker ++ [.stop] ++
    List.replicate 3 .worker ++ [.startGc 0 1 false]

/-- The collection waits for ever. -/
theorem stopped_worker_hangs :
    ∃ s call, Run.run step initial busyStop = some s ∧ s.pc = .returned ∧
      s.thread.workItemsEmpty = false ∧ ∀ t, Run.Reachable step s t → t.calls 0 = .waiting call :=
  ⟨_, ⟨1, false, 1⟩, rfl, rfl, rfl, fun _ => waiting_of_reachable rfl rfl rfl⟩

end Interleaving

end Owlcat
