import OwlcatMonoProfiler.Client.Ingestion
import OwlcatMonoProfiler.Library.Run

/-!
# Sessions of the client

The client with everything that happens to it, one action at a time: the network thread puts
messages into the read buffer, the message thread takes them out, the user starts and stops sessions
and opens traces.

* `Action`, `step`: the actions and their effect; `step` is `none` for an action that is not
  possible;
* `Session`: the actions of a session in which given messages arrive before it is stopped;
* `run_session`: whatever the schedule, a client that was not stopped before has made the same of
  these messages when its message thread returns;
* `run_session_stopped`: one that was stopped before receives nothing any more.
-/

namespace Owlcat

open Protocol

namespace Recorder

/-- What holds between two messages: a buffer that is too long cannot be saved. -/
def Settled (d : Recorder) : Prop := d.frameEvents.length ≤ 10000 ∨ d.prevFrame = noFrame

/-- The events that are left belong to the current frame. -/
def Submitted (d : Recorder) : Prop := ∀ e ∈ d.frameEvents.head?, e.frame = d.prevFrame

theorem frameEvents_saveFrameEvents (d : Recorder) (h : d.prevFrame ≠ noFrame) :
    d.saveFrameEvents.frameEvents = [] := by
  rw [saveFrameEvents, if_neg h]
  rfl

theorem saveFrameEvents_of_noFrame {d : Recorder} (h : d.prevFrame = noFrame) :
    d.saveFrameEvents = d :=
  if_pos h

theorem Settled.flush_eq {d : Recorder} (h : d.Settled) : d.flush = d := by
  rw [flush]
  split_ifs with hlen
  · exact saveFrameEvents_of_noFrame (h.resolve_left (by omega))
  · rfl

theorem settled_flush (d : Recorder) : d.flush.Settled := by
  rw [flush]
  split_ifs with hlen
  · by_cases hprev : d.prevFrame = noFrame
    · rw [saveFrameEvents_of_noFrame hprev]
      exact Or.inr hprev
    · exact Or.inl (by simp [frameEvents_saveFrameEvents d hprev])
  · exact Or.inl (by omega)

theorem settled_addEvents {d : Recorder} (h : d.Settled) (es : List ProfilerEvent) :
    (d.addEvents es).Settled := by
  induction es using List.reverseRecOn with
  | nil => exact h
  | append_singleton es e _ =>
    rw [addEvents, List.foldl_append]
    exact settled_flush _

theorem addEvents_append (d : Recorder) (es es' : List ProfilerEvent) :
    d.addEvents (es ++ es') = (d.addEvents es).addEvents es' :=
  List.foldl_append

/-- When the message thread returns, the events that are left belong to the current frame. -/
theorem submitted_submitLastEvents (d : Recorder) : d.submitLastEvents.Submitted := by
  unfold submitLastEvents
  cases hd : d.frameEvents with
  | nil =>
    intro e he
    simp [hd] at he
  | cons x l =>
    simp only [trySaveEvents]
    split_ifs with hx
    · by_cases hprev : d.prevFrame = noFrame
      · have hbounds : (d.updateFrameBounds x.frame).prevFrame = noFrame := hprev
        rw [saveFrameEvents_of_noFrame hbounds]
        intro e he
        have hhead : d.frameEvents.head? = some e := he
        rw [hd, List.head?_cons, Option.some.injEq] at hhead
        exact congrArg ProfilerEvent.frame hhead.symm
      · intro e he
        have hnil := frameEvents_saveFrameEvents (d.updateFrameBounds x.frame) hprev
        rw [show (((d.updateFrameBounds x.frame).saveFrameEvents).startFrame x.frame).frameEvents =
          (d.updateFrameBounds x.frame).saveFrameEvents.frameEvents from rfl, hnil] at he
        simp at he
    · intro e he
      rw [hd, List.head?_cons, Option.mem_some_iff] at he
      rw [← he]
      exact not_not.1 hx

/-- Then there is nothing left to submit. -/
theorem Submitted.submitLastEvents_eq {d : Recorder} (h : d.Submitted) :
    d.submitLastEvents = d := by
  unfold submitLastEvents
  cases hd : d.frameEvents with
  | nil => rfl
  | cons x l =>
    have hx := h x (by simp [hd])
    simp [trySaveEvents, hx]

end Recorder

namespace Details

variable (u : Uninit)

/-- A message changes nothing but the recorder, the commands and the callbacks. -/
structure SameThread (d d' : Details) : Prop where
  readBuffer : d'.readBuffer = d.readBuffer
  socketOpen : d'.socketOpen = d.socketOpen
  networkStop : d'.networkStop = d.networkStop
  stop : d'.stop = d.stop
  thread : d'.thread = d.thread

theorem SameThread.refl (d : Details) : SameThread d d := ⟨rfl, rfl, rfl, rfl, rfl⟩

theorem getCommand_frame {d d' : Details} {requestId : UInt64} {type : UInt8} {cmd : Command}
    (h : d.getCommand requestId type = some (cmd, d')) :
    SameThread d d' ∧ d'.toRecorder = d.toRecorder := by
  obtain ⟨x, -, hx⟩ := Option.map_eq_some_iff.1 h
  cases hx
  exact ⟨⟨rfl, rfl, rfl, rfl, rfl⟩, rfl⟩

theorem callback_frame {d d' : Details} (h : SameThread d d' ∧ d'.toRecorder = d.toRecorder)
    (hd : d.toRecorder.Settled) (cmd : Command) (answer : Received) :
    SameThread d (d'.callback cmd answer).flush ∧
      (d'.callback cmd answer).flush.toRecorder = d.toRecorder := by
  obtain ⟨hframe, hrec⟩ := h
  refine ⟨⟨hframe.1, hframe.2, hframe.3, hframe.4, hframe.5⟩, ?_⟩
  change d'.toRecorder.flush = _
  rw [hrec, hd.flush_eq]

/-- A response leaves the recorder alone. -/
theorem processStatus_frame {d : Details} (h : d.toRecorder.Settled) (reader : MemoryReader)
    (type : UInt8) (received : UInt64 → Bool → Received) :
    SameThread d (d.processStatus u reader type received) ∧
      (d.processStatus u reader type received).toRecorder = d.toRecorder := by
  simp only [processStatus]
  cases hcmd : d.getCommand (reader.readUint64 u.uint64).value type with
  | none => split_ifs <;> exact ⟨.refl d, rfl⟩
  | some found =>
    have hframe := getCommand_frame hcmd
    split_ifs
    · exact ⟨.refl d, rfl⟩
    · exact hframe
    · exact callback_frame hframe h _ _

theorem processReferences_frame {d : Details} (h : d.toRecorder.Settled) (reader : MemoryReader) :
    SameThread d (d.processReferences u reader) ∧
      (d.processReferences u reader).toRecorder = d.toRecorder := by
  simp only [processReferences]
  cases hcmd : d.getCommand (reader.readUint64 u.uint64).value cmdReferences with
  | none => split_ifs <;> exact ⟨.refl d, rfl⟩
  | some found =>
    have hframe := getCommand_frame hcmd
    split_ifs
    · exact ⟨.refl d, rfl⟩
    · exact hframe
    · exact callback_frame hframe h _ _

theorem addEvent_frame (d : Details) (e : ProfilerEvent) :
    SameThread d (d.addEvent e).flush ∧
      (d.addEvent e).flush.toRecorder = d.toRecorder.addEvents [e] :=
  ⟨⟨rfl, rfl, rfl, rfl, rfl⟩, rfl⟩

/-- **One message**, of any kind. -/
theorem processMessage_frame {d : Details} (h : d.toRecorder.Settled) (msg : Packet) :
    SameThread d (d.processMessage u msg) ∧
      (d.processMessage u msg).toRecorder =
        d.toRecorder.addEvents (decodeEvent u msg).toList := by
  have hflush : SameThread d d.flush ∧ d.flush.toRecorder = d.toRecorder :=
    ⟨⟨rfl, rfl, rfl, rfl, rfl⟩, h.flush_eq⟩
  unfold processMessage decodeEvent
  simp only
  split_ifs
  · exact addEvent_frame d _
  · exact hflush
  · exact addEvent_frame d _
  · exact hflush
  · exact processReferences_frame u h _
  · exact processStatus_frame u h _ _ _
  · exact processStatus_frame u h _ _ _
  · exact hflush

/-- The messages of a session, whatever they are. -/
theorem processMessages_toRecorder {d : Details} (h : d.toRecorder.Settled) (msgs : List Packet) :
    (d.processMessages u msgs).toRecorder = d.toRecorder.addEvents (decodeEvents u msgs) := by
  induction msgs generalizing d with
  | nil => rfl
  | cons msg msgs ih =>
    obtain ⟨-, hrec⟩ := processMessage_frame u h msg
    have hsettled := Recorder.settled_addEvents h (decodeEvent u msg).toList
    rw [← hrec] at hsettled
    rw [processMessages, List.foldl_cons]
    refine (ih hsettled).trans ?_
    rw [hrec, ← Recorder.addEvents_append]
    cases hmsg : decodeEvent u msg <;> simp [decodeEvents, hmsg]

/-! ### Actions -/

/-- What can happen to a client.  The user waits in `stop` while the message thread runs, so this is
two actions, `stop` and `joinThread`. -/
inductive Action
  | start (faults : List Fault)
  | receive (msg : Packet)
  | poll
  | stop
  | joinThread
  | openData (file : Option Database)
  | saveDb
  | closeDb
  | findObjectsReferences (addresses : List UInt64)
  | pauseApp
  | resumeApp

/-- The state after an action. -/
def step (d : Details) : Action → Option Details
  | .start faults => if d.thread = .none then some (d.start faults) else none
  | .receive msg => some (d.receive msg)
  | .poll => if d.thread = .running then some (d.poll u) else none
  | .stop => some (if d.thread = .none then d.requestStop.joinThread else d.requestStop)
  | .joinThread => if d.thread = .returned ∧ d.stop then some d.joinThread else none
  | .openData file => some (d.openData file).2
  | .saveDb => some d.saveDb.2
  | .closeDb => if d.thread = .none then some d.closeDb else none
  | .findObjectsReferences addresses => some (d.findObjectsReferences addresses)
  | .pauseApp => some d.pauseApp
  | .resumeApp => some d.resumeApp

/-- The messages that arrive. -/
def Action.arrives : Action → Option Packet
  | .receive msg => some msg
  | _ => none

/-- The actions of a session, while the user waits for nothing: messages arrive, the thread looks
for them, requests are made. -/
def Action.InSession : Action → Prop
  | .receive _ | .poll | .findObjectsReferences _ | .pauseApp | .resumeApp => True
  | _ => False

/-- The actions of a session in which the messages `msgs` arrive before it is stopped. -/
structure Session (msgs : List Packet) (l : List Action) : Prop where
  split : ∃ l₁ l₂, l = l₁ ++ .stop :: l₂ ∧ (∀ a ∈ l₁, a.InSession) ∧
    (∀ a ∈ l₂, a.InSession ∧ a.arrives = none) ∧ l₁.filterMap Action.arrives = msgs

/-- The message thread of a session that began with the recorder `start`: it has processed all of
`msgs` but what is in the read buffer, and when it has returned, nothing is there. -/
structure Served (start : Recorder) (msgs : List Packet) (d : Details) : Prop where
  processed : ∃ done, msgs = done ++ d.readBuffer ∧
    (d.thread = .running ∧ d.toRecorder = start.addEvents (decodeEvents u done) ∨
      d.thread = .returned ∧ d.readBuffer = [] ∧
        d.toRecorder = (start.addEvents (decodeEvents u done)).submitLastEvents)
  settled : start.Settled

variable {u} {start : Recorder} {msgs : List Packet} {d d' : Details}

/-- One iteration of the message loop. -/
theorem Served.poll (h : Served u start msgs d) (hrunning : d.thread = .running) :
    Served u start msgs (d.poll u) ∧
      SameThread { d with readBuffer := (d.poll u).readBuffer, thread := (d.poll u).thread }
        (d.poll u) := by
  obtain ⟨done, hmsgs, hcase⟩ := h.processed
  obtain ⟨-, hrec⟩ := hcase.resolve_right fun hr => by simp [hrunning] at hr
  unfold Details.poll
  cases hbuf : d.readBuffer with
  | nil =>
    simp only
    split_ifs with hstop
    · refine ⟨⟨⟨done, by rw [hmsgs, hbuf], Or.inr ⟨rfl, rfl, ?_⟩⟩, h.settled⟩,
        ⟨rfl, rfl, rfl, rfl, rfl⟩⟩
      rw [← hrec]
    · exact ⟨h, ⟨rfl, rfl, rfl, rfl, rfl⟩⟩
  | cons msg rest =>
    have hsettled : d.toRecorder.Settled := hrec ▸ Recorder.settled_addEvents h.settled _
    obtain ⟨hframe, hmsg⟩ :=
      processMessage_frame u (d := { d with readBuffer := rest }) hsettled msg
    refine ⟨⟨⟨done ++ [msg], ?_, Or.inl ⟨hframe.thread.trans hrunning, ?_⟩⟩, h.settled⟩,
      ⟨rfl, hframe.2, hframe.3, hframe.4, rfl⟩⟩
    · rw [hframe.readBuffer, hmsgs, hbuf, List.append_assoc]
      rfl
    · rw [hmsg, decodeEvents_append, Recorder.addEvents_append, ← hrec, decodeEvents_singleton]

/-- The requests leave the message thread alone. -/
theorem Served.addCommand (h : Served u start msgs d) (cmd : Command) :
    Served u start msgs (d.addCommand cmd) :=
  ⟨h.processed, h.settled⟩

/-- A message that arrives while the thread runs. -/
theorem Served.receive (h : Served u start msgs d) (hrunning : d.thread = .running) {msg : Packet}
    (hup : d.socketOpen ∧ d.networkStop = false) :
    Served u start (msgs ++ [msg]) (d.receive msg) := by
  obtain ⟨done, hmsgs, hcase⟩ := h.processed
  have hrec := hcase.resolve_right fun hr => by simp [hrunning] at hr
  have hreceive : d.receive msg = { d with readBuffer := d.readBuffer ++ [msg] } := by
    rw [Details.receive, if_pos (by simp [hup])]
  rw [hreceive]
  exact ⟨⟨done, by rw [hmsgs, List.append_assoc], Or.inl hrec⟩, h.settled⟩

/-- Nothing arrives once the network thread was stopped. -/
theorem receive_of_networkStop (h : d.networkStop = true) (msg : Packet) : d.receive msg = d := by
  simp [Details.receive, h]

/-- While the client is not told to stop, messages arrive and are processed. -/
theorem Served.run_open {l : List Action} (h : Served u start msgs d)
    (hrunning : d.thread = .running) (hstop : d.stop = false)
    (hup : d.socketOpen ∧ d.networkStop = false) (hl : ∀ a ∈ l, a.InSession)
    (hrun : Run.run (step u) d l = some d') :
    Served u start (msgs ++ l.filterMap Action.arrives) d' ∧ d'.thread = .running := by
  induction l generalizing d msgs with
  | nil => cases hrun; exact ⟨by simpa using h, hrunning⟩
  | cons a l ih =>
    obtain ⟨ha, hrest⟩ := List.forall_mem_cons.1 hl
    obtain ⟨d₁, hd₁, hrun⟩ := Option.bind_eq_some_iff.1 hrun
    cases a with
    | receive msg =>
      cases hd₁
      have hreceive : d.receive msg = { d with readBuffer := d.readBuffer ++ [msg] } := by
        rw [Details.receive, if_pos (by simp [hup])]
      have h1 := ih (h.receive hrunning hup) (by rw [hreceive]; exact hrunning)
        (by rw [hreceive]; exact hstop) (by rw [hreceive]; exact hup) hrest hrun
      simpa [Action.arrives] using h1
    | poll =>
      rw [step, if_pos hrunning] at hd₁
      cases hd₁
      obtain ⟨h1, hframe⟩ := h.poll hrunning
      have hrunning1 : (d.poll u).thread = .running := by
        unfold Details.poll
        cases hbuf : d.readBuffer with
        | nil => simp [hstop, hrunning]
        | cons msg rest =>
          obtain ⟨done, -, hcase⟩ := h.processed
          obtain ⟨-, hrec⟩ := hcase.resolve_right fun hr => by simp [hrunning] at hr
          have hsettled : d.toRecorder.Settled := hrec ▸ Recorder.settled_addEvents h.settled _
          exact (processMessage_frame u (d := { d with readBuffer := rest }) hsettled
            msg).1.thread.trans hrunning
      exact ih h1 hrunning1 (hframe.stop.trans hstop)
        ⟨hframe.socketOpen.trans hup.1, hframe.networkStop.trans hup.2⟩ hrest hrun
    | findObjectsReferences | pauseApp | resumeApp =>
      cases hd₁
      exact ih (h.addCommand _) hrunning hstop hup hrest hrun
    | start | stop | joinThread | openData | saveDb | closeDb => exact ha.elim

/-- When nothing arrives, the thread works off what is in the read buffer. -/
theorem Served.run_closed {l : List Action} (h : Served u start msgs d) (hthread : d.thread ≠ .none)
    (hl : ∀ a ∈ l, (a.InSession ∨ a = .stop) ∧ (a.arrives = none ∨ d.networkStop = true))
    (hrun : Run.run (step u) d l = some d') : Served u start msgs d' := by
  induction l generalizing d with
  | nil => cases hrun; exact h
  | cons a l ih =>
    obtain ⟨⟨ha, harrives⟩, hrest⟩ := List.forall_mem_cons.1 hl
    obtain ⟨d₁, hd₁, hrun⟩ := Option.bind_eq_some_iff.1 hrun
    cases a with
    | receive msg =>
      cases hd₁
      -- the network thread has stopped, so the message is lost
      have hstopped := harrives.resolve_left (by simp [Action.arrives])
      rw [receive_of_networkStop hstopped] at hrun
      exact ih h hthread hrest hrun
    | poll =>
      rw [step] at hd₁
      split_ifs at hd₁ with hrunning
      cases hd₁
      obtain ⟨h1, hframe⟩ := h.poll hrunning
      have hthread1 : (d.poll u).thread ≠ .none := by
        obtain ⟨done, -, ⟨hr, -⟩ | ⟨hr, -⟩⟩ := h1.processed <;> simp [hr]
      exact ih h1 hthread1 (fun a ha => hframe.networkStop ▸ hrest a ha) hrun
    | findObjectsReferences | pauseApp | resumeApp =>
      cases hd₁
      exact ih (h.addCommand _) hthread hrest hrun
    | stop =>
      rw [step, if_neg hthread] at hd₁
      cases hd₁
      exact ih (d := d.requestStop) ⟨h.processed, h.settled⟩ hthread hrest hrun
    | start | joinThread | openData | saveDb | closeDb =>
      exact (ha.resolve_right (by simp)).elim

/-- **A session of a client that was not stopped before.**  Whatever the schedule, its thread
returns having processed all messages. -/
theorem run_session {l : List Action} (hthread : d.thread = .running) (hstop : d.stop = false)
    (hup : d.socketOpen ∧ d.networkStop = false) (hbuf : d.readBuffer = [])
    (hsettled : d.toRecorder.Settled) (hl : Session msgs l) (hrun : Run.run (step u) d l = some d')
    (hreturned : d'.thread = .returned) :
    d'.toRecorder = (d.toRecorder.addEvents (decodeEvents u msgs)).submitLastEvents := by
  obtain ⟨l₁, l₂, rfl, h1, h2, rfl⟩ := hl.split
  rw [Run.run_append] at hrun
  obtain ⟨d₁, hd₁, hrun⟩ := Option.bind_eq_some_iff.1 hrun
  have hstart : Served u d.toRecorder [] d :=
    ⟨⟨[], by simp [hbuf], Or.inl ⟨hthread, rfl⟩⟩, hsettled⟩
  obtain ⟨hserved, hrunning⟩ := hstart.run_open hthread hstop hup h1 hd₁
  obtain ⟨d₂, hd₂, hrun⟩ := Option.bind_eq_some_iff.1 hrun
  rw [step, if_neg (by simp [hrunning])] at hd₂
  cases hd₂
  have hserved2 : Served u d.toRecorder ([] ++ l₁.filterMap Action.arrives) d₁.requestStop :=
    ⟨hserved.processed, hserved.settled⟩
  have hfinal := hserved2.run_closed (show d₁.thread ≠ .none by simp [hrunning])
    (fun a ha => ⟨Or.inl (h2 a ha).1, Or.inl (h2 a ha).2⟩) hrun
  obtain ⟨done, hdone, ⟨hr, -⟩ | ⟨-, hempty, hrec⟩⟩ := hfinal.processed
  · simp [hr] at hreturned
  · rw [hempty, List.append_nil] at hdone
    rw [hrec, ← hdone, List.nil_append]

/-- **A session of a client that was stopped before.**  It sees what is left in the read buffer. -/
theorem run_session_stopped {l : List Action} (hthread : d.thread = .running)
    (hdown : d.networkStop = true) (hsettled : d.toRecorder.Settled) (hl : Session msgs l)
    (hrun : Run.run (step u) d l = some d') (hreturned : d'.thread = .returned) :
    d'.toRecorder = (d.toRecorder.addEvents (decodeEvents u d.readBuffer)).submitLastEvents := by
  obtain ⟨l₁, l₂, rfl, h1, h2, -⟩ := hl.split
  have hstart : Served u d.toRecorder d.readBuffer d :=
    ⟨⟨[], rfl, Or.inl ⟨hthread, rfl⟩⟩, hsettled⟩
  have hfinal := hstart.run_closed (by simp [hthread]) (fun a ha => ?_) hrun
  · obtain ⟨done, hdone, ⟨hr, -⟩ | ⟨-, hempty, hrec⟩⟩ := hfinal.processed
    · simp [hr] at hreturned
    · rw [hempty, List.append_nil] at hdone
      rw [hrec, ← hdone]
  · refine ⟨?_, Or.inr hdown⟩
    rcases List.mem_append.1 ha with ha | ha
    · exact Or.inl (h1 a ha)
    · exact (List.mem_cons.1 ha).symm.imp_left fun ha => (h2 a ha).1

/-! ### A schedule that goes through -/

/-- All messages arrive, the session is stopped, and the thread looks for messages `n` times. -/
def schedule (msgs : List Packet) (n : ℕ) : List Action :=
  msgs.map .receive ++ .stop :: List.replicate n .poll

theorem session_schedule (msgs : List Packet) (n : ℕ) : Session msgs (schedule msgs n) := by
  refine ⟨msgs.map .receive, List.replicate n .poll, rfl, ?_, ?_, ?_⟩
  · intro a ha
    obtain ⟨msg, -, rfl⟩ := List.mem_map.1 ha
    trivial
  · intro a ha
    rw [List.eq_of_mem_replicate ha]
    exact ⟨trivial, rfl⟩
  · rw [List.filterMap_map]
    exact List.filterMap_some

theorem run_receives (u : Uninit) (d : Details) (msgs : List Packet) :
    ∃ d', Run.run (step u) d (msgs.map .receive) = some d' ∧ d'.toRecorder = d.toRecorder ∧
      d'.thread = d.thread := by
  induction msgs generalizing d with
  | nil => exact ⟨d, rfl, rfl, rfl⟩
  | cons msg msgs ih =>
    obtain ⟨d', h1, h2, h3⟩ := ih (d.receive msg)
    have hsame : (d.receive msg).toRecorder = d.toRecorder ∧ (d.receive msg).thread = d.thread := by
      unfold Details.receive
      split_ifs <;> exact ⟨rfl, rfl⟩
    exact ⟨d', h1, h2.trans hsame.1, h3.trans hsame.2⟩

/-- The thread of a stopped client empties the read buffer and returns. -/
theorem run_polls (u : Uninit) {n : ℕ} {d : Details} (hthread : d.thread = .running)
    (hstop : d.stop = true) (hsettled : d.toRecorder.Settled) (hn : d.readBuffer.length ≤ n) :
    ∃ k d', Run.run (step u) d (List.replicate (k + 1) .poll) = some d' ∧
      d'.thread = .returned := by
  induction n generalizing d with
  | zero =>
    have hbuf : d.readBuffer = [] := List.length_eq_zero_iff.1 (Nat.le_zero.1 hn)
    refine ⟨0, d.poll u, ?_, ?_⟩
    · simp [step, hthread]
    · simp [poll, hbuf, hstop]
  | succ n ih =>
    cases hbuf : d.readBuffer with
    | nil =>
      refine ⟨0, d.poll u, ?_, ?_⟩
      · simp [step, hthread]
      · simp [poll, hbuf, hstop]
    | cons msg rest =>
      have hpoll : d.poll u = { d with readBuffer := rest }.processMessage u msg := by
        rw [poll, hbuf]
      obtain ⟨hframe, hrec⟩ :=
        processMessage_frame u (d := { d with readBuffer := rest }) hsettled msg
      rw [← hpoll] at hframe hrec
      have hlen : (d.poll u).readBuffer.length ≤ n := by
        rw [hbuf, List.length_cons] at hn
        rw [hframe.readBuffer]
        exact Nat.le_of_succ_le_succ hn
      obtain ⟨k, d', hrun, hreturned⟩ := ih (hframe.thread.trans hthread)
        (hframe.stop.trans hstop) (hrec ▸ Recorder.settled_addEvents hsettled _) hlen
      refine ⟨k + 1, d', ?_, hreturned⟩
      rw [List.replicate_succ, Run.run_cons, step, if_pos hthread]
      exact hrun

/-- For all messages there is a session that comes to its end. -/
theorem exists_session (u : Uninit) {d : Details} (hthread : d.thread = .running)
    (hsettled : d.toRecorder.Settled) (msgs : List Packet) :
    ∃ l d', Session msgs l ∧ Run.run (step u) d l = some d' ∧ d'.thread = .returned := by
  obtain ⟨d₁, h1, hrec, ht⟩ := run_receives u d msgs
  have hrunning : d₁.thread = .running := ht.trans hthread
  obtain ⟨k, d', hpolls, hreturned⟩ := run_polls u (d := d₁.requestStop) hrunning rfl
    (show d₁.toRecorder.Settled from hrec ▸ hsettled) le_rfl
  refine ⟨schedule msgs (k + 1), d', session_schedule msgs _, ?_, hreturned⟩
  rw [schedule, Run.run_append, h1, Option.bind_some, Run.run_cons, step,
    if_neg (by simp [hrunning])]
  exact hpolls

end Details

end Owlcat
