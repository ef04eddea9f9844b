import OwlcatMonoProfiler.Network.Wire
import OwlcatMonoProfiler.Server.Connections
import OwlcatMonoProfiler.Totals

/-!
# A profiled application and its clients

The whole of a profiled application and the client that is connected to it: the worker thread, the
calls of its events sink, the bytes on the connection, and the message thread of the client.  They
take their steps in any order; clients come and go, each with a new connection and a new trace.

* `Profiling`, `step`: the parts, and how they follow each other;
* `InOrder`: a write sends only when all writes before it are complete;
* `Inv.step`: what the client has received is the beginning of the messages of its session;
* `ShowsSince`: what a client shows that has been connected since some call of the sink;
* `delayed_of_run`: the client shows an earlier moment of the run, and the present one when nothing
  is on its way.
-/

namespace Owlcat

open Blocks ProfilerEvent

/-- The server, and the connection and the client of its latest session.  `taken` counts the
messages the client has processed. -/
structure Profiling where
  server : Connections.State := {}
  wire : Wire.State := {}
  client : Details := freshClient
  taken : ℕ := 0

namespace Profiling

/-- What can happen.  `report` is a call of the sink, `process` an iteration of the loop of the
client's `process_messages`. -/
inductive Action
  | thread (a : WorkerThread.Action)
  | report (padding : Padding)
  | connect
  | disconnect
  | send (i n : ℕ)
  | read
  | process (u : Uninit)

/-- The state after a step. -/
def step (s : Profiling) : Action → Option Profiling
  | .thread a =>
    (Connections.step s.server (.thread a)).map fun server => { s with server := server }
  | .report padding =>
    match s.server.thread.eventsSink[s.server.handled]? with
    | none => none
    | some r => (Connections.step s.server .report).bind fun server =>
      if s.server.connected then
        (Wire.step s.wire (.writeMessage (reportPacket r) padding)).map fun wire =>
          { s with server := server, wire := wire }
      else some { s with server := server }
  | .connect => (Connections.step s.server .connect).map fun server => { server := server }
  | .disconnect =>
    (Connections.step s.server .disconnect).map fun server => { s with server := server }
  | .send i n => (Wire.step s.wire (.send i n)).map fun wire => { s with wire := wire }
  | .read => (Wire.step s.wire .read).map fun wire => { s with wire := wire }
  | .process u => s.wire.readBuffer[s.taken]?.map fun msg =>
    { s with client := s.client.processMessage u msg, taken := s.taken + 1 }

/-- Only the oldest write sends. -/
def InOrder (s : Profiling) : Action → Prop
  | .send i n => Wire.OldestFirst s.wire (.send i n)
  | _ => True

/-- Full collections start only when no allocation is pending. -/
def CollectsDrained (s : Profiling) : Action → Prop
  | .thread a => s.server.thread.CollectsDrained a
  | _ => True

instance (s : Profiling) : ∀ a, Decidable (s.InOrder a)
  | .send i n => inferInstanceAs (Decidable (Wire.OldestFirst s.wire (.send i n)))
  | .thread _ | .report _ | .connect | .disconnect | .read | .process _ => .isTrue trivial

instance (s : Profiling) : ∀ a, Decidable (s.CollectsDrained a)
  | .thread a => inferInstanceAs (Decidable (s.server.thread.CollectsDrained a))
  | .report _ | .connect | .disconnect | .send .. | .read | .process _ => .isTrue trivial

/-! ### What the client has received -/

/-- The messages of the latest session. -/
def messages (s : Profiling) : List Report :=
  s.server.sessions.head?.elim [] Connections.Session.messages

/-- The events the client has received. -/
def received (s : Profiling) : List ProfilerEvent :=
  (s.messages.take s.taken).filterMap Report.profilerEvent

/-- **The invariant of the whole.** -/
structure Inv (s : Profiling) : Prop where
  server : Connections.Inv s.server
  start_le : ∀ session ∈ s.server.sessions.head?, session.start ≤ s.server.handled
  eventsFrom : s.server.thread.EventsFrom
  wire : Wire.Inv s.wire
  written : s.wire.written = s.messages.map reportPacket
  taken_le : s.taken ≤ s.wire.readBuffer.length
  client : s.client.toRecorder = freshClient.toRecorder.addEvents s.received

theorem Inv.initial : Inv {} :=
  ⟨.initial, nofun, WorkerThread.eventsFrom_initial, .initial, rfl, Nat.le_refl 0, rfl⟩

/-- What is read was written. -/
theorem Inv.readBuffer_prefix {s : Profiling} (h : Inv s) :
    s.wire.readBuffer <+: s.messages.map reportPacket := by
  obtain ⟨current, rest, pending, -, hwritten, -⟩ := h.wire.bytes
  rw [← h.written, hwritten, List.append_assoc]
  exact List.prefix_append _ _

theorem Inv.taken_le_messages {s : Profiling} (h : Inv s) : s.taken ≤ s.messages.length := by
  have hle := h.readBuffer_prefix.length_le
  rw [List.length_map] at hle
  exact h.taken_le.trans hle

/-- A message is added to the session of the current connection. -/
theorem messages_report {s : Profiling} (h : Inv s) {r : Report} {server : Connections.State}
    (hr : s.server.thread.eventsSink[s.server.handled]? = some r)
    (hstep : Connections.step s.server .report = some server) :
    ({ s with server := server } : Profiling).messages =
      if s.server.connected then s.messages ++ [r] else s.messages := by
  simp only [Connections.step, hr, Option.some.injEq] at hstep
  subst hstep
  cases hconnected : s.server.connected with
  | false => rfl
  | true =>
    obtain ⟨session, rest, hsessions, -⟩ := h.server.current hconnected
    simp [messages, hsessions, Connections.writeMessage]

/-- A call of the sink leaves the beginning of the session where it is. -/
theorem start_le_report {s : Profiling} (h : Inv s) {server : Connections.State}
    (hstep : Connections.step s.server .report = some server) :
    (∀ session ∈ server.sessions.head?, session.start ≤ server.handled) ∧
      server.thread = s.server.thread := by
  simp only [Connections.step] at hstep
  split at hstep
  · cases hstep
  · cases hstep
    refine ⟨fun session hsession => Nat.le_succ_of_le ?_, rfl⟩
    dsimp only at hsession
    split_ifs at hsession with hconnected
    · obtain ⟨current, rest, hsessions, hstart, -⟩ := h.server.current hconnected
      rw [hsessions] at hsession
      cases hsession
      exact hstart
    · exact h.start_le session hsession

/-- A message that is written is not read yet. -/
theorem wire_write {w w' : Wire.State} {p : Packet} {padding : Padding}
    (h : Wire.step w (.writeMessage p padding) = some w') :
    w'.written = w.written ++ [p] ∧ w'.readBuffer = w.readBuffer := by
  simp only [Wire.step] at h
  split_ifs at h
  cases h
  exact ⟨rfl, rfl⟩

/-- Bytes that are sent are neither written again nor read. -/
theorem wire_send {w w' : Wire.State} {i n : ℕ} (h : Wire.step w (.send i n) = some w') :
    w'.written = w.written ∧ w'.readBuffer = w.readBuffer := by
  simp only [Wire.step] at h
  split at h
  · cases h
  · split_ifs at h
    cases h
    exact ⟨rfl, rfl⟩

/-- A read only adds to the messages that are read. -/
theorem wire_read {w w' : Wire.State} (h : Wire.step w .read = some w') :
    w'.written = w.written ∧ w.readBuffer <+: w'.readBuffer := by
  simp only [Wire.step, Wire.read] at h
  split at h
  · split at h
    · cases h
      exact ⟨rfl, List.prefix_rfl⟩
    · cases h
  · split_ifs at h
    cases h
    exact ⟨rfl, List.prefix_append _ _⟩
  · cases h

/-- A call of the sink is written to the connection, if there is one, and the client does not see
it yet. -/
theorem Inv.report {s t : Profiling} (h : Inv s) {padding : Padding}
    (hstep : s.step (.report padding) = some t) : Inv t := by
  simp only [Profiling.step] at hstep
  cases hr : s.server.thread.eventsSink[s.server.handled]? with
  | none => simp [hr] at hstep
  | some r =>
    simp only [hr] at hstep
    obtain ⟨server, hserver, hstep⟩ := Option.bind_eq_some_iff.1 hstep
    have hinv := h.server.step (a := .report) trivial hserver
    have hmessages := messages_report h hr hserver
    obtain ⟨hstart, hthread⟩ := start_le_report h hserver
    have hevents : server.thread.EventsFrom := hthread ▸ h.eventsFrom
    split at hstep
    · next hconnected =>
      obtain ⟨wire, hwire, rfl⟩ := Option.map_eq_some_iff.1 hstep
      rw [if_pos hconnected] at hmessages
      have hwireInv := h.wire.step (a := .writeMessage (reportPacket r) padding) trivial hwire
      obtain ⟨hwritten, hread⟩ := wire_write hwire
      refine ⟨hinv, hstart, hevents, hwireInv, ?_, hread.symm ▸ h.taken_le, ?_⟩
      · change wire.written = ({ s with server := server } : Profiling).messages.map reportPacket
        rw [hmessages, hwritten, h.written, List.map_append, List.map_singleton]
      · -- the new message is behind the ones that are taken
        rw [h.client]
        change _ = Recorder.addEvents _ ((({ s with server := server } :
          Profiling).messages.take s.taken).filterMap Report.profilerEvent)
        rw [hmessages, List.take_append_of_le_length h.taken_le_messages]
        rfl
    · next hconnected =>
      cases hstep
      rw [if_neg hconnected] at hmessages
      refine ⟨hinv, hstart, hevents, h.wire, h.written.trans (by rw [hmessages]), h.taken_le, ?_⟩
      rw [h.client, received, received, hmessages]

/-- The message the client takes next is that of a call of the sink. -/
theorem Inv.exists_report {s : Profiling} (h : Inv s) {msg : Packet}
    (hmsg : s.wire.readBuffer[s.taken]? = some msg) :
    ∃ r, s.messages[s.taken]? = some r ∧ reportPacket r = msg ∧ msg.data.length < 2 ^ 64 := by
  obtain ⟨hlt, -⟩ := List.getElem?_eq_some_iff.1 hmsg
  obtain ⟨rest, hrest⟩ := h.readBuffer_prefix
  have hget : (s.messages.map reportPacket)[s.taken]? = some msg := by
    rw [← hrest, List.getElem?_append_left hlt, hmsg]
  have hmem : msg ∈ s.wire.written := h.written ▸ List.mem_of_getElem? hget
  rw [List.getElem?_map] at hget
  obtain ⟨r, hr, hpacket⟩ := Option.map_eq_some_iff.1 hget
  exact ⟨r, hr, hpacket, (h.wire.fits _ hmem).2.trans (by norm_num)⟩

/-- The client adds the event of the message it takes. -/
theorem Inv.process {s t : Profiling} (h : Inv s) {u : Uninit}
    (hstep : s.step (.process u) = some t) : Inv t := by
  obtain ⟨msg, hmsg, rfl⟩ := Option.map_eq_some_iff.1 hstep
  obtain ⟨hlt, -⟩ := List.getElem?_eq_some_iff.1 hmsg
  obtain ⟨r, hr, rfl, hlen⟩ := h.exists_report hmsg
  refine ⟨h.server, h.start_le, h.eventsFrom, h.wire, h.written, hlt, ?_⟩
  have hsettled : s.client.toRecorder.Settled :=
    h.client ▸ Recorder.settled_addEvents (Or.inr rfl) _
  have htake : s.messages.take (s.taken + 1) = s.messages.take s.taken ++ [r] := by
    rw [List.take_add_one, hr, Option.toList_some]
  change (s.client.processMessage u (reportPacket r)).toRecorder = Recorder.addEvents _
    ((s.messages.take (s.taken + 1)).filterMap Report.profilerEvent)
  rw [(Details.processMessage_frame u hsettled _).2, decodeEvent_reportPacket u hlen, h.client,
    ← Recorder.addEvents_append, htake, List.filterMap_append, received]
  cases hevent : r.profilerEvent <;> simp [hevent]

/-- **Every step keeps the invariant.** -/
theorem Inv.step {s t : Profiling} {a : Action} (h : Inv s) (horder : s.InOrder a)
    (hdrained : s.CollectsDrained a) (hstep : s.step a = some t) : Inv t := by
  cases a with
  | thread a =>
    obtain ⟨server, hserver, rfl⟩ := Option.map_eq_some_iff.1 hstep
    have hinv := h.server.step (a := .thread a) hdrained hserver
    obtain ⟨w, hw, rfl⟩ := Option.map_eq_some_iff.1 hserver
    exact ⟨hinv, h.start_le, h.eventsFrom.step h.server.consistent.noDangling hw, h.wire,
      h.written, h.taken_le, h.client⟩
  | report padding => exact h.report hstep
  | connect =>
    obtain ⟨server, hserver, rfl⟩ := Option.map_eq_some_iff.1 hstep
    have hinv := h.server.step (a := .connect) trivial hserver
    simp only [Connections.step] at hserver
    split_ifs at hserver
    cases hserver
    refine ⟨hinv, fun session hsession => ?_, h.eventsFrom, .initial, rfl, Nat.le_refl 0, rfl⟩
    cases hsession
    exact Nat.le_refl _
  | disconnect =>
    have hinv := h.server.step (a := .disconnect) trivial rfl
    cases hstep
    exact ⟨hinv, h.start_le, h.eventsFrom, h.wire, h.written, h.taken_le, h.client⟩
  | send i n =>
    obtain ⟨wire, hwire, rfl⟩ := Option.map_eq_some_iff.1 hstep
    have hinv := h.wire.step (a := .send i n) horder hwire
    obtain ⟨hwritten, hread⟩ := wire_send hwire
    exact ⟨h.server, h.start_le, h.eventsFrom, hinv, hwritten.trans h.written,
      hread.symm ▸ h.taken_le, h.client⟩
  | read =>
    obtain ⟨wire, hwire, rfl⟩ := Option.map_eq_some_iff.1 hstep
    have hinv := h.wire.step (a := .read) trivial hwire
    obtain ⟨hwritten, hread⟩ := wire_read hwire
    exact ⟨h.server, h.start_le, h.eventsFrom, hinv, hwritten.trans h.written,
      h.taken_le.trans hread.length_le, h.client⟩
  | process u => exact h.process hstep

theorem inv_of_run {s : Profiling} {l : List Action} (hrun : Run.run step {} l = some s)
    (horder : Run.Along step InOrder {} l) (hdrained : Run.Along step CollectsDrained {} l) :
    Inv s :=
  Run.run_invariant (fun _ _ _ h hP hstep => h.step hP.1 hP.2 hstep) Inv.initial
    (Run.along_and.2 ⟨horder, hdrained⟩) hrun

/-! ### What a client shows -/

/-- The allocations and frees of some calls of the sink. -/
def logOf (calls : List Report) : List (AllocLog.Event UInt64 UInt32) :=
  calls.filterMap Report.event

/-- The events of some calls of the sink. -/
def eventsOf (calls : List Report) : List ProfilerEvent := calls.filterMap Report.profilerEvent

theorem map_event_eventsOf (calls : List Report) : (eventsOf calls).map event = logOf calls := by
  rw [eventsOf, logOf, List.map_filterMap]
  refine List.filterMap_congr fun r _ => ?_
  cases r <;> rfl

theorem logOf_take_drop (calls : List Report) (start : ℕ) :
    logOf (calls.take start) ++ logOf (calls.drop start) = logOf calls := by
  rw [logOf, logOf, ← List.filterMap_append, List.take_append_drop, logOf]

/-- The sizes of open allocations. -/
def liveSize (live : List (Sigma fun _ : UInt64 => UInt32)) : ℕ :=
  (live.map fun e => e.2.toNat).sum

/-- What a client shows that is connected since `start` calls of the sink, when `live` is open: a
list of the objects of `live` allocated since, and a graph that ends, modulo `2 ^ 64`, as far below
the size of `live` as was open when it connected. -/
structure ShowsSince (d : Recorder) (progressFunc : Option (ℕ → ℕ → Bool)) (calls : List Report)
    (start : ℕ) (live : List (Sigma fun _ : UInt64 => UInt32)) : Prop where
  objects : ((d.getLiveObjects 0 Int32.maxValue progressFunc).map fun o => (o.addr, o.size)).Perm
    ((live.filter fun e => AllocLog.allocates (logOf (calls.drop start)) e.1).map
      fun e => (e.1, e.2.toUInt64))
  graph : ∀ f, lastKey frame (eventsOf (calls.drop start)) = some f → ∃ size,
    GraphsData.EndsAt d f size ∧
      size + UInt64.ofNat (Dict.total UInt32.toNat (AllocLog.replay (logOf (calls.take start)))) =
        UInt64.ofNat (liveSize live)

/-- What the running total of the client leaves out is what was live when it connected. -/
theorem netSize_since {calls : List Report} {start : ℕ}
    {live : List (Sigma fun _ : UInt64 => UInt32)}
    (h : AllocLog.Outstanding (logOf calls) live) :
    netSize (eventsOf (calls.drop start)) +
        (Dict.total UInt32.toNat (AllocLog.replay (logOf (calls.take start))) : ℕ) =
      (liveSize live : ℕ) := by
  have hall := h.total_eq UInt32.toNat
  rw [← logOf_take_drop calls start] at h hall
  have hbefore := AllocLog.total_replay UInt32.toNat h.wellFormed.of_prefix
  rw [AllocLog.allocTotal_append, AllocLog.freeTotal_append] at hall
  rw [netSize_eq, map_event_eventsOf, liveSize]
  omega

theorem ofInt_add_ofNat {x : ℤ} {m n : ℕ} (h : x + m = n) :
    getUint64 (some (Int64.ofInt x)) + UInt64.ofNat m = UInt64.ofNat n := by
  have hx : (BitVec.ofInt 64 x) + BitVec.ofNat 64 m = BitVec.ofNat 64 n := by
    rw [← BitVec.ofInt_natCast, ← BitVec.ofInt_add, h, BitVec.ofInt_natCast]
  exact UInt64.toBitVec_inj.1 hx

/-- **What a client shows** that has saved what it has received. -/
theorem showsSince {d : Recorder} {calls : List Report} {start : ℕ}
    {live : List (Sigma fun _ : UInt64 => UInt32)}
    (h : AllocLog.Outstanding (logOf calls) live)
    (hd : d = freshClient.toRecorder.addEvents (eventsOf (calls.drop start)))
    (hseq : Sequential (eventsOf (calls.drop start)))
    (hframes : FramesFitInt (eventsOf (calls.drop start)))
    {progressFunc : Option (ℕ → ℕ → Bool)} (hprogress : NeverCancels progressFunc) :
    ShowsSince d.saveFrameEvents progressFunc calls start live := by
  obtain ⟨db, saved, hing⟩ := ingested_freshClient hframes.noSentinel
  rw [← hd] at hing
  obtain ⟨db', hdb, hrec, hstats⟩ := hing.saveFrameEvents_spec hframes.noSentinel
  constructor
  · have hall : ((eventsOf (calls.drop start)).filter fun e =>
        (0 : UInt64) ≤ e.frame ∧ e.frame ≤ 0x7FFFFFFF) = eventsOf (calls.drop start) := by
      refine List.filter_eq_self.2 fun e he => decide_eq_true ⟨UInt64.zero_le, ?_⟩
      have hlt := UInt64.lt_iff_toNat_lt.1 (hframes e he)
      exact UInt64.le_iff_toNat_le.2 (Nat.le_of_lt_succ hlt)
    have hfrom : (0 : Int32).toInt64.toUInt64 = 0 := rfl
    have hto : Int32.maxValue.toInt64.toUInt64 = 0x7FFFFFFF := rfl
    rw [hrec.getLiveObjects_eq hdb hseq hframes hfrom hto (by decide) (by decide) hprogress, hall]
    refine (liveObjects_perm _ _ _).trans ?_
    rw [map_event_eventsOf]
    rw [← logOf_take_drop calls start] at h
    exact h.entries_replay_part.map _
  · intro f hlast
    exact ⟨_, endsAt_of_stats hdb hseq hstats hlast, ofInt_add_ofNat (netSize_since h)⟩

/-! ### Moments of a run -/

/-- The calls of the sink so far. -/
def sink (s : Profiling) : List Report := s.server.thread.eventsSink

theorem thread_step {s t : Profiling} {a : Action} (hstep : s.step a = some t) :
    t.server.thread = s.server.thread ∨
      ∃ b, a = .thread b ∧ s.server.thread.step b = some t.server.thread := by
  cases a with
  | thread b =>
    obtain ⟨server, hserver, rfl⟩ := Option.map_eq_some_iff.1 hstep
    obtain ⟨w, hw, rfl⟩ := Option.map_eq_some_iff.1 hserver
    exact .inr ⟨b, rfl, hw⟩
  | report padding =>
    left
    simp only [Profiling.step] at hstep
    split at hstep
    · cases hstep
    · obtain ⟨server, hserver, hstep⟩ := Option.bind_eq_some_iff.1 hstep
      have hthread : server.thread = s.server.thread := by
        simp only [Connections.step] at hserver
        split at hserver <;> cases hserver
        rfl
      split at hstep
      · obtain ⟨wire, -, rfl⟩ := Option.map_eq_some_iff.1 hstep
        exact hthread
      · cases hstep
        exact hthread
  | connect =>
    obtain ⟨server, hserver, rfl⟩ := Option.map_eq_some_iff.1 hstep
    simp only [Connections.step] at hserver
    split_ifs at hserver
    cases hserver
    exact .inl rfl
  | disconnect => cases hstep; exact .inl rfl
  | send i n => obtain ⟨wire, -, rfl⟩ := Option.map_eq_some_iff.1 hstep; exact .inl rfl
  | read => obtain ⟨wire, -, rfl⟩ := Option.map_eq_some_iff.1 hstep; exact .inl rfl
  | process u => obtain ⟨msg, -, rfl⟩ := Option.map_eq_some_iff.1 hstep; exact .inl rfl

theorem sink_of_run {s t : Profiling} {l : List Action} (hrun : Run.run step s l = some t) :
    s.sink <+: t.sink := by
  refine Run.reachable_invariant (I := fun u : Profiling => s.sink <+: u.sink)
    (fun u a v hu hstep => ?_) List.prefix_rfl ⟨l, hrun⟩
  obtain hsame | ⟨b, -, hb⟩ := thread_step hstep
  · change s.sink <+: v.server.thread.eventsSink
    rw [hsame]
    exact hu
  · exact hu.trans (WorkerThread.eventsSink_step hb)

/-- A worker thread that has not returned has not returned before. -/
theorem running_of_run {s t : Profiling} {l : List Action} (hs : Inv s)
    (horder : Run.Along step InOrder s l) (hdrained : Run.Along step CollectsDrained s l)
    (hrun : Run.run step s l = some t) (ht : t.server.thread.exited = false) :
    s.server.thread.exited = false := by
  induction l generalizing s with
  | nil => cases hrun; exact ht
  | cons a l ih =>
    obtain ⟨u, hu, hrun⟩ := Option.bind_eq_some_iff.1 hrun
    have hexited := ih (hs.step horder.1 hdrained.1 hu) (horder.2 u hu) (hdrained.2 u hu) hrun
    obtain hsame | ⟨b, -, hb⟩ := thread_step hu
    · rwa [← hsame]
    · by_cases hwork : b = .work
      · rw [hwork] at hb
        simp only [WorkerThread.step] at hb
        split_ifs at hb with hw
        simpa using hw
      · rw [← (WorkerThread.log_step hs.server.consistent.noDangling hwork hb).2]
        exact hexited

/-- The worker thread calls the sink at most once in a step, but twice for an object that takes the
place of one whose free is not reported yet. -/
theorem calls_of_step {w w' : WorkerThread} {a : WorkerThread.Action} (hstep : w.step a = some w') :
    w'.eventsSink.length ≤ w.eventsSink.length + 1 ∨
      ∃ frame addr size size' name stack, w'.eventsSink =
        w.eventsSink ++ [.free frame addr size, .alloc frame addr size' name stack] := by
  have hone : ∀ (v : WorkerThread) (r : Report), v.eventsSink = w.eventsSink →
      (v.report r).eventsSink.length ≤ w.eventsSink.length + 1 := fun v r hv => by
    rw [WorkerThread.report, hv, List.length_append, List.length_singleton]
  cases a with
  | work =>
    simp only [WorkerThread.step] at hstep
    split_ifs at hstep
    cases hstep
    unfold WorkerThread.doWork
    split_ifs
    · exact .inl (Nat.le_succ _)
    · cases w.workItems.tryDequeue with
      | none => exact .inl (Nat.le_succ _)
      | some p =>
        obtain ⟨item, q⟩ := p
        cases item with
        | free frame obj size => exact .inl (hone _ _ rfl)
        | alloc frame klass obj size backtrace =>
          simp only [WorkerThread.processItem]
          cases WorkerThread.callstack backtrace with
          | none => exact .inl (Nat.le_succ _)
          | some str =>
            simp only [WorkerThread.enterAllocation]
            cases w.allocations.lookup obj with
            | none => exact .inl (hone _ _ rfl)
            | some alloc =>
              exact .inr ⟨frame, obj, alloc.size, size, getFullClassName klass, str,
                List.append_assoc w.eventsSink [_] [_]⟩
  | collect frame only mem =>
    cases hstep
    cases only <;> exact .inl (Nat.le_succ _)
  | findReferences requestId addresses frame mem classOf =>
    obtain ⟨result, -, rfl⟩ := Option.map_eq_some_iff.1 hstep
    refine .inl (hone _ _ ?_)
    unfold WorkerThread.refreshParents
    split_ifs <;> rfl
  | pause requestId => cases hstep; exact .inl (hone _ _ rfl)
  | resume requestId => cases hstep; exact .inl (hone _ _ rfl)
  | rehash m =>
    simp only [WorkerThread.step] at hstep
    split_ifs at hstep
    cases hstep
    exact .inl (Nat.le_succ _)
  | addAllocation | registerRoot | unregisterRoot | stop =>
    cases hstep
    exact .inl (Nat.le_succ _)


/-- The events the client has received are those of its part of the calls. -/
theorem Inv.received_eq {s : Profiling} (h : Inv s) {session : Connections.Session}
    {rest : List Connections.Session} (hsessions : s.server.sessions = session :: rest) :
    s.received = eventsOf ((s.sink.take (session.start + s.taken)).drop session.start) ∧
      session.start + s.taken ≤ s.sink.length := by
  have hmessages : s.messages = session.messages := by simp [messages, hsessions]
  have hpart : s.messages <+: s.sink.drop session.start := by
    have hcalls := h.server.contiguous session (hsessions ▸ List.mem_cons_self)
    rw [hmessages]
    exact List.IsPrefix.trans hcalls ((List.take_prefix _ _).drop _)
  have hstart : session.start ≤ s.sink.length :=
    (h.start_le session (by rw [hsessions]; rfl)).trans h.server.handled_le
  have htaken := h.taken_le_messages
  constructor
  · rw [List.drop_take, Nat.add_sub_cancel_left]
    obtain ⟨more, hmore⟩ := hpart
    rw [← hmore, List.take_append_of_le_length htaken]
    rfl
  · have hle := htaken.trans hpart.length_le
    rw [List.length_drop] at hle
    omega

/-- What is open when the worker thread has made some calls of the sink, of which the last one is
still to come when it is the allocation of an object that takes the place of another one. -/
def OpenAt (w : WorkerThread) (calls : List Report)
    (live : List (Sigma fun _ : UInt64 => UInt32)) : Prop :=
  (w.eventsSink = calls ∧ live = w.outstanding) ∨
    ∃ frame addr size name stack, w.eventsSink = calls ++ [.alloc frame addr size name stack] ∧
      w.outstanding.Perm (⟨addr, size⟩ :: live)

/-- **Each number of calls is that of a moment.** -/
theorem exists_moment {s : Profiling} {l : List Action} (hrun : Run.run step {} l = some s)
    (horder : Run.Along step InOrder {} l) (hdrained : Run.Along step CollectsDrained {} l)
    (hrunning : s.server.thread.exited = false) {n : ℕ} (hn : n ≤ s.sink.length) :
    ∃ l₁ l₂ m live, l = l₁ ++ l₂ ∧ Run.run step {} l₁ = some m ∧
      OpenAt m.server.thread (s.sink.take n) live ∧
      AllocLog.Outstanding (logOf (s.sink.take n)) live := by
  obtain ⟨l₁, l₂, m, rfl, hm, hrest, hcase⟩ :=
    Run.exists_prefix_eq (fun u : Profiling => u.sink.length) hrun (Nat.zero_le n) hn
  obtain ⟨horder₁, horder₂⟩ := (Run.along_append hm).1 horder
  obtain ⟨hdrained₁, hdrained₂⟩ := (Run.along_append hm).1 hdrained
  have hinv : Inv m := inv_of_run hm horder₁ hdrained₁
  have haccounted : AllocLog.Outstanding (logOf m.sink) m.server.thread.outstanding :=
    (hinv.server.consistent.accounted
      (running_of_run hinv horder₂ hdrained₂ hrest hrunning)).outstanding
  obtain ⟨later, hlater⟩ := sink_of_run hrest
  rcases hcase with heq | ⟨l₀, a, v, rfl, -, hstep, hlt, hpast⟩
  · have hcalls : m.sink = s.sink.take n := by rw [← hlater, ← heq, List.take_left]
    exact ⟨l₁, l₂, m, m.server.thread.outstanding, rfl, hm, .inl ⟨hcalls, rfl⟩,
      hcalls ▸ haccounted⟩
  · -- a step that passes a number makes two calls, and the client has the first one
    obtain hsame | ⟨b, rfl, hb⟩ := thread_step hstep
    · have hsink : m.sink = v.sink := congrArg WorkerThread.eventsSink hsame
      rw [hsink] at hpast
      exact absurd (hlt.trans hpast) (Nat.lt_irrefl _)
    · obtain hone | ⟨frame, addr, size, size', name, stack, hcalls⟩ := calls_of_step hb
      · change m.sink.length ≤ v.sink.length + 1 at hone
        omega
      · change m.sink = v.sink ++ [_, _] at hcalls
        have hn : n = v.sink.length + 1 := by
          rw [hcalls, List.length_append] at hpast
          simp only [List.length_cons, List.length_nil] at hpast
          omega
        have hsplit : m.sink = (v.sink ++ [.free frame addr size]) ++
            [.alloc frame addr size' name stack] := by rw [hcalls, List.append_assoc]; rfl
        have htake : s.sink.take n = v.sink ++ [.free frame addr size] := by
          rw [← hlater, hsplit, hn, List.append_assoc]
          exact List.take_left' (by simp)
        rw [hsplit, logOf, List.filterMap_append] at haccounted
        obtain ⟨live, hlive, hperm⟩ := haccounted.of_alloc
        refine ⟨_, l₂, m, live, rfl, hm, .inr ⟨frame, addr, size', name, stack, ?_, hperm⟩, ?_⟩
        · rw [htake]
          exact hsplit
        · rw [htake]
          exact hlive

/-- Nothing is on its way: a client is connected and has processed all messages. -/
structure Quiet (s : Profiling) : Prop where
  connected : s.server.connected = true
  handled : s.server.handled = s.sink.length
  sent : s.wire.outstanding = []
  read : Wire.read s.wire = none
  taken : s.taken = s.wire.readBuffer.length

/-- A client connects after one object was allocated and before another one is. -/
def lateRun : List Action :=
  [.thread (.addAllocation 1 ⟨none, .empty⟩ 16 8 []), .thread .work, .report (0, 0, 0), .connect,
    .thread (.addAllocation 1 ⟨none, .empty⟩ 32 24 []), .thread .work, .report (0, 0, 0),
    .send 0 200, .read, .read, .process ⟨0, 0, 0⟩]

end Profiling

end Owlcat
