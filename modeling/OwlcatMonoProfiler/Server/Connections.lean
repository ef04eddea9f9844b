import OwlcatMonoProfiler.Server.Accounting

/-!
# Sessions of a running server

The events sink of `server/src/mono_profiler_server.cpp` sends a message for each call while a
client is connected, and drops the call otherwise.  The worker thread goes on in either case.

* `Session`: the messages of one connection, and the number of calls before it;
* `State`, `step`: the worker thread, the calls of the sink one by one, and the connection;
* `Inv.step`: the messages of a session are a contiguous part of the calls;
* `free_in_session`: so a free in a session closes an allocation of the session, or one that was
  reported before the session began, and the running total of the client stays above what was live
  then, taken negatively.
-/

namespace Owlcat

open AllocLog (Event)

namespace WorkerThread

theorem eventsSink_processItem (w : WorkerThread) (item : WorkItem) :
    w.eventsSink <+: (w.processItem item).eventsSink := by
  cases item with
  | free frame obj size => exact List.prefix_append _ _
  | alloc frame klass obj size backtrace =>
    simp only [processItem]
    cases callstack backtrace with
    | none => exact List.prefix_rfl
    | some str =>
      simp only [enterAllocation]
      cases w.allocations.lookup obj with
      | none => exact List.prefix_append _ _
      | some alloc => exact (List.prefix_append _ _).trans (List.prefix_append _ _)

/-- The worker thread only adds to the calls of the sink. -/
theorem eventsSink_step {w w' : WorkerThread} {a : Action} (hstep : w.step a = some w') :
    w.eventsSink <+: w'.eventsSink := by
  cases a with
  | work =>
    simp only [WorkerThread.step] at hstep
    split_ifs at hstep
    cases hstep
    unfold doWork
    split_ifs
    · exact List.prefix_rfl
    · cases w.workItems.tryDequeue with
      | none => exact List.prefix_rfl
      | some p =>
        exact eventsSink_processItem { w with workItems := p.2, workItemsEmpty := false } p.1
  | collect frame only mem =>
    cases hstep
    cases only <;> exact List.prefix_rfl
  | findReferences requestId addresses frame mem classOf =>
    obtain ⟨result, -, rfl⟩ := Option.map_eq_some_iff.1 hstep
    have hrefresh : (w.refreshParents frame mem).eventsSink = w.eventsSink := by
      unfold refreshParents
      split_ifs <;> rfl
    change w.eventsSink <+: (w.refreshParents frame mem).eventsSink ++ [_]
    rw [hrefresh]
    exact List.prefix_append _ _
  | pause requestId => cases hstep; exact List.prefix_append _ _
  | resume requestId => cases hstep; exact List.prefix_append _ _
  | rehash m =>
    simp only [WorkerThread.step] at hstep
    split_ifs at hstep
    cases hstep
    exact List.prefix_rfl
  | addAllocation | registerRoot | unregisterRoot | stop => cases hstep; exact List.prefix_rfl

end WorkerThread

namespace Connections

/-- One connection: how many calls of the sink were over when it began, and what was sent. -/
structure Session where
  start : ℕ
  messages : List Report := []

/-- The worker thread, how many calls of the sink are over, and the sessions, latest first. -/
structure State where
  thread : WorkerThread := {}
  handled : ℕ := 0
  connected : Bool := false
  sessions : List Session := []

/-- What can happen to a server.  A call of the sink is a step of its own, because the connection
may come or go between two calls of one item. -/
inductive Action
  | thread (a : WorkerThread.Action)
  | report
  | connect
  | disconnect

/-- `write_message` to the connected client. -/
def writeMessage (r : Report) : List Session → List Session
  | [] => []
  | session :: rest => { session with messages := session.messages ++ [r] } :: rest

/-- The state after a step. -/
def step (s : State) : Action → Option State
  | .thread a => (s.thread.step a).map fun w => { s with thread := w }
  | .report =>
    match s.thread.eventsSink[s.handled]? with
    | none => none
    | some r =>
      some { s with
        handled := s.handled + 1
        sessions := if s.connected then writeMessage r s.sessions else s.sessions }
  | .connect =>
    if s.connected then none
    else some { s with connected := true, sessions := { start := s.handled } :: s.sessions }
  | .disconnect => some { s with connected := false }

/-- Full collections start only when no allocation is pending. -/
def CollectsDrained (s : State) : Action → Prop
  | .thread a => s.thread.CollectsDrained a
  | _ => True

instance (s : State) : ∀ a, Decidable (CollectsDrained s a)
  | .thread a => inferInstanceAs (Decidable (s.thread.CollectsDrained a))
  | .report | .connect | .disconnect => .isTrue trivial

/-- The calls that are over. -/
def State.calls (s : State) : List Report := s.thread.eventsSink.take s.handled

/-- The messages of a session are the first calls since it began. -/
def Session.Contiguous (session : Session) (calls : List Report) : Prop :=
  session.messages <+: calls.drop session.start

/-- **The invariant of the sessions.** -/
structure Inv (s : State) : Prop where
  consistent : s.thread.Consistent
  handled_le : s.handled ≤ s.thread.eventsSink.length
  contiguous : ∀ session ∈ s.sessions, session.Contiguous s.calls
  current : s.connected → ∃ session rest, s.sessions = session :: rest ∧
    session.start ≤ s.handled ∧ session.messages = s.calls.drop session.start

theorem Inv.initial : Inv {} :=
  ⟨WorkerThread.Consistent.initial, Nat.le_refl 0, by simp, by simp⟩

theorem Session.Contiguous.mono {session : Session} {calls calls' : List Report}
    (h : session.Contiguous calls) (hcalls : calls <+: calls') : session.Contiguous calls' :=
  List.IsPrefix.trans h (hcalls.drop _)

/-- **Every step keeps the sessions contiguous.** -/
theorem Inv.step {s t : State} {a : Action} (h : Inv s) (hdrained : CollectsDrained s a)
    (hstep : step s a = some t) : Inv t := by
  cases a with
  | thread a =>
    obtain ⟨w, hw, rfl⟩ := Option.map_eq_some_iff.1 hstep
    have hsink := WorkerThread.eventsSink_step hw
    -- new calls of the sink come behind the ones that are handled
    have hcalls : ({ s with thread := w } : State).calls = s.calls := by
      obtain ⟨new, hnew⟩ := hsink
      simp only [State.calls, ← hnew]
      rw [List.take_append_of_le_length h.handled_le]
    refine ⟨h.consistent.step hdrained hw, h.handled_le.trans hsink.length_le, ?_, ?_⟩
    · rw [hcalls]
      exact h.contiguous
    · rw [hcalls]
      exact h.current
  | report =>
    simp only [Connections.step] at hstep
    cases hr : s.thread.eventsSink[s.handled]? with
    | none => simp [hr] at hstep
    | some r =>
      simp only [hr, Option.some.injEq] at hstep
      obtain ⟨hlt, -⟩ := List.getElem?_eq_some_iff.1 hr
      have hcalls : t.calls = s.calls ++ [r] := by
        subst hstep
        simp only [State.calls, List.take_add_one, hr, Option.toList_some]
      have hgrow : s.calls <+: t.calls := hcalls ▸ List.prefix_append _ _
      cases hconnected : s.connected with
      | false =>
        subst hstep
        simp only [hconnected, Bool.false_eq_true, if_false] at hgrow ⊢
        -- without a connection the report is dropped, and no session gets longer
        exact ⟨h.consistent, hlt, fun session hs => (h.contiguous session hs).mono hgrow, by simp⟩
      | true =>
        obtain ⟨session, rest, hsessions, hstart, hmessages⟩ := h.current hconnected
        have hlast : session.messages ++ [r] = t.calls.drop session.start := by
          rw [hcalls, List.drop_append_of_le_length, hmessages]
          rw [State.calls, List.length_take]
          exact Nat.le_min.2 ⟨hstart, hstart.trans h.handled_le⟩
        subst hstep
        simp only [hconnected, if_true, hsessions, writeMessage] at hgrow hlast ⊢
        refine ⟨h.consistent, hlt, fun other hother => ?_, fun _ => ⟨_, rest, rfl, ?_, hlast⟩⟩
        · rcases List.mem_cons.1 hother with rfl | hother
          · exact hlast ▸ List.prefix_rfl
          · exact (h.contiguous other (hsessions ▸ List.mem_cons_of_mem _ hother)).mono hgrow
        · exact Nat.le_succ_of_le hstart
  | connect =>
    simp only [Connections.step] at hstep
    split_ifs at hstep
    cases hstep
    refine ⟨h.consistent, h.handled_le, fun session hs => ?_,
      fun _ => ⟨_, _, rfl, Nat.le_refl _, ?_⟩⟩
    · rcases List.mem_cons.1 hs with rfl | hs
      · exact List.nil_prefix
      · exact h.contiguous session hs
    · rw [State.calls, List.drop_take, Nat.sub_self, List.take_zero]
  | disconnect =>
    cases hstep
    exact ⟨h.consistent, h.handled_le, h.contiguous, by simp⟩

/-- The allocations and frees of a session. -/
def Session.log (session : Session) : List (Event UInt64 UInt32) :=
  session.messages.filterMap Report.event

/-- The memory the client counts as allocated. -/
def Session.runningTotal (session : Session) : ℤ :=
  (AllocLog.allocTotal UInt32.toNat session.log : ℕ) -
    (AllocLog.freeTotal UInt32.toNat session.log : ℕ)

/-- The allocations and frees that were reported before a session. -/
def State.logBefore (s : State) (session : Session) : List (Event UInt64 UInt32) :=
  (s.thread.eventsSink.take session.start).filterMap Report.event

/-- A session continues the log before it. -/
theorem Inv.wellFormed {s : State} (h : Inv s) {session : Session} (hs : session ∈ s.sessions) :
    AllocLog.WellFormed (s.logBefore session ++ session.log) := by
  have hpart : session.messages <+: s.thread.eventsSink.drop session.start :=
    (h.contiguous session hs).trans ((List.take_prefix _ _).drop _)
  obtain ⟨rest, hrest⟩ := hpart
  have hlog : s.thread.log =
      (s.logBefore session ++ session.log) ++ rest.filterMap Report.event := by
    rw [WorkerThread.log, State.logBefore, Session.log, ← List.filterMap_append,
      ← List.filterMap_append, List.append_assoc, hrest, List.take_append_drop]
  have hwell := h.consistent.wellFormed
  rw [hlog] at hwell
  exact hwell.of_prefix

/-- **Frees of a session.**  Each of them closes the last event of its address in the session, an
allocation with the same size, or, if there is none, an allocation that was reported and not freed
before the session.  The running total never falls below the size of the latter, taken
negatively. -/
theorem free_in_session {l : List Action} {s : State} (hrun : Run.run step {} l = some s)
    (hdrained : Run.Along step CollectsDrained {} l) {session : Session}
    (hs : session ∈ s.sessions) :
    (∀ pre addr size post, session.log = pre ++ .free addr size :: post →
      (∃ p q, pre = p ++ .alloc addr size :: q ∧ ∀ e ∈ q, e.addr ≠ addr) ∨
        (∀ e ∈ pre, e.addr ≠ addr) ∧ AllocLog.live (s.logBefore session) addr = some size) ∧
      -(Dict.total UInt32.toNat (AllocLog.replay (s.logBefore session)) : ℕ) ≤
        session.runningTotal := by
  have h : Inv s :=
    Run.run_invariant (fun _ _ _ h hP hstep => h.step hP hstep) Inv.initial hdrained hrun
  have hwell := h.wellFormed hs
  refine ⟨fun pre addr size post hlog => hwell.free_of_part hlog, ?_⟩
  have hle := AllocLog.WellFormed.freeTotal_part_le (f := UInt32.toNat) hwell
  rw [Session.runningTotal]
  omega

/-- A client that is connected from the beginning, and an object that is allocated and collected. -/
def connectedRun : List Action :=
  [.connect, .thread (.addAllocation 1 ⟨none, .empty⟩ 16 8 []), .thread .work, .report,
    .thread (.collect 2 false fun _ => none), .thread .work, .report]

theorem free_in_session_connectedRun :
    ∃ s, Run.run step {} connectedRun = some s ∧ ∃ session ∈ s.sessions,
      (∀ pre addr size post, session.log = pre ++ .free addr size :: post →
        (∃ p q, pre = p ++ .alloc addr size :: q ∧ ∀ e ∈ q, e.addr ≠ addr) ∨
          (∀ e ∈ pre, e.addr ≠ addr) ∧ AllocLog.live (s.logBefore session) addr = some size) ∧
        -(Dict.total UInt32.toNat (AllocLog.replay (s.logBefore session)) : ℕ) ≤
          session.runningTotal :=
  ⟨_, rfl, _, List.mem_singleton.2 rfl,
    free_in_session (l := connectedRun) rfl (by decide) (List.mem_singleton.2 rfl)⟩

/-- The object is allocated before the client connects, and its session begins with the free. -/
theorem free_without_alloc :
    ¬ ∀ (l : List Action) (s : State), Run.run step {} l = some s → ∀ session ∈ s.sessions,
      (∀ pre addr size post, session.log = pre ++ .free addr size :: post →
        ∃ p q, pre = p ++ .alloc addr size :: q ∧ ∀ size', .free addr size' ∉ q) ∧
        0 ≤ session.runningTotal := by
  intro h
  have h' := h [.thread (.addAllocation 1 ⟨none, .empty⟩ 16 8 []), .thread .work, .report, .connect,
    .thread (.collect 2 false fun _ => none), .thread .work, .report] _ rfl _
    (List.mem_singleton.2 rfl)
  obtain ⟨p, q, hpq, -⟩ := h'.1 [] 16 8 [] (by decide)
  cases p <;> cases hpq

end Connections

end Owlcat
