import OwlcatMonoProfiler.Library.Run

/-!
# The state of a connection

The class `network::details` of `network/src/network.cpp` without its messages: the flag and the
thread of the I/O loop, acceptor and socket, the connection status and the read that is outstanding.

* `Network`, `step`: the members, and what calls, completions and the loop do to them;
* `KeepsRunning`: the loop does not end before the next `stop`;
* `keepsRunning_iff`: it does not exactly when `stop` has never been called;
* `EndsDisconnected`: a read that does not go on ends with an error `set_disconnected_status` knows;
* `reading_of_connected`: then a read is outstanding whenever `is_connected` says so.
-/

namespace Owlcat

/-- What asio reports about an operation. -/
inductive ErrorCode
  | ok
  | eof
  | connectionReset
  | connectionAborted
  | other (value : ℕ)
  deriving DecidableEq

/-- The errors `set_disconnected_status` reacts to. -/
def ErrorCode.disconnects : ErrorCode → Bool
  | .eof | .connectionReset | .connectionAborted => true
  | .ok | .other _ => false

inductive ConnectionStatus
  | notInit
  | connected
  | disconnected
  deriving DecidableEq

/-- The thread of the I/O loop; it is joinable unless it is `none`. -/
inductive IoThread
  | none
  | running
  | finished
  deriving DecidableEq

/-- The read that is outstanding on the socket. -/
inductive Reading
  | header
  | body (length : ℕ)
  deriving DecidableEq

/-- The members of `network::details`.  `accepting` says that an asynchronous accept is outstanding,
`serving` that a listen or connect has succeeded since the last stop. -/
structure Network where
  stop : Bool := false
  thread : IoThread := .none
  acceptorOpen : Bool := false
  accepting : Bool := false
  socketOpen : Bool := false
  connected : ConnectionStatus := .notInit
  listening : Bool := false
  reading : Option Reading := .none
  serving : Bool := false
  deriving DecidableEq

namespace Network

def isConnected (s : Network) : Bool := s.socketOpen && s.connected = .connected

def isConnecting (s : Network) : Bool := s.connected = .notInit

def isListening (s : Network) : Bool := s.acceptorOpen && s.listening

def setDisconnectedStatus (s : Network) (ec : ErrorCode) : Network :=
  if ec.disconnects then { s with connected := .disconnected } else s

def readMessageHeaderFromSocket (s : Network) : Network := { s with reading := some .header }

/-- `on_new_connection`; the socket is open when it was accepted. -/
def onNewConnection (s : Network) (ec : ErrorCode) : Network :=
  if ec = .ok then
    { s with socketOpen := true, connected := .connected, listening := false
      }.readMessageHeaderFromSocket
  else { s with connected := .disconnected }

/-- `on_header_read`; `length` is the one in the header. -/
def onHeaderRead (s : Network) (ec : ErrorCode) (readSize length : ℕ) : Network :=
  let s := { s with reading := none }
  if ec ≠ .ok then s.setDisconnectedStatus ec
  else if readSize ≠ 8 then s
  else { s with reading := some (.body length) }

/-- `on_body_read` -/
def onBodyRead (s : Network) (ec : ErrorCode) (readSize length : ℕ) : Network :=
  let s := { s with reading := none }
  if ec ≠ .ok then s.setDisconnectedStatus ec
  else if readSize ≠ length then s
  else s.readMessageHeaderFromSocket

/-- A new thread for `run`; to overwrite a joinable one ends the process. -/
def startThread (s : Network) : Option Network :=
  if s.thread = .none then some { s with thread := .running, serving := true } else none

/-- The part `listen_async` and `listen_sync` have in common, up to `m_acceptor.listen()`.  An
acceptor that is open already, or that cannot be bound, throws. -/
def openAcceptor (s : Network) (bound : Bool) : Bool × Network :=
  (!s.acceptorOpen && bound, { s with listening := true, acceptorOpen := true })

def listenAsync (s : Network) (bound : Bool) : Option Network :=
  let r := s.openAcceptor bound
  if r.1 then startThread { r.2 with accepting := true } else some r.2

/-- `ec` is what the accept returns. -/
def listenSync (s : Network) (bound : Bool) (ec : ErrorCode) : Option Network :=
  let r := s.openAcceptor bound
  if r.1 then startThread (r.2.onNewConnection ec) else some r.2

/-- A `connect` that fails leaves the socket open. -/
def connect (s : Network) (ec : ErrorCode) : Option Network :=
  if ec = .ok then startThread { s with socketOpen := true }.readMessageHeaderFromSocket
  else some { s with socketOpen := true }

/-- `stop`: the thread is joined, so it has left its loop; operations on socket and acceptor are
cancelled. -/
def requestStop (s : Network) : Network :=
  { s with
    stop := true, thread := .none, acceptorOpen := false, accepting := false, socketOpen := false
    connected := .notInit, reading := none, serving := false }

/-- Calls of the members, completions of the outstanding operations, and the condition of the I/O
loop. -/
inductive Action
  | listenAsync (bound : Bool)
  | listenSync (bound : Bool) (ec : ErrorCode)
  | connect (ec : ErrorCode)
  | stop
  | newConnection (ec : ErrorCode)
  | headerRead (ec : ErrorCode) (readSize length : ℕ)
  | bodyRead (ec : ErrorCode) (readSize : ℕ)
  | loop
  deriving DecidableEq

/-- The state after an action. -/
def step (s : Network) : Action → Option Network
  | .listenAsync bound => s.listenAsync bound
  | .listenSync bound ec => s.listenSync bound ec
  | .connect ec => s.connect ec
  | .stop => some s.requestStop
  | .newConnection ec =>
    if s.accepting then some ({ s with accepting := false }.onNewConnection ec) else none
  | .headerRead ec readSize length =>
    match s.reading with
    | some .header => some (s.onHeaderRead ec readSize length)
    | _ => none
  | .bodyRead ec readSize =>
    match s.reading with
    | some (.body length) => some (s.onBodyRead ec readSize length)
    | _ => none
  | .loop =>
    match s.thread with
    | .running => some (if s.stop then { s with thread := .finished } else s)
    | _ => none

/-! ### The I/O loop -/

/-- The I/O loop runs, and goes on until the next call of `stop`. -/
def KeepsRunning (s : Network) : Prop :=
  ∀ l t, Run.run step s l = some t → Action.stop ∉ l → t.thread = .running

/-- What holds as long as `stop` has not been called. -/
structure NeverStopped (s : Network) : Prop where
  stop : s.stop = false
  running : s.serving → s.thread = .running

theorem startThread_eq {s t : Network} (h : s.startThread = some t) :
    t = { s with thread := .running, serving := true } := by
  unfold startThread at h
  split_ifs at h
  exact (Option.some.inj h).symm

/-- A completion or a failed call moves neither flag nor thread. -/
theorem setDisconnectedStatus_frame (s : Network) (ec : ErrorCode) :
    (s.setDisconnectedStatus ec).stop = s.stop ∧ (s.setDisconnectedStatus ec).thread = s.thread ∧
      (s.setDisconnectedStatus ec).serving = s.serving := by
  unfold setDisconnectedStatus
  split_ifs <;> exact ⟨rfl, rfl, rfl⟩

/-- **What a step does to the loop**: it starts the thread, moves neither flag nor thread, stops, or
lets the loop look at the flag. -/
theorem step_loop {s t : Network} {a : Action} (hstep : step s a = some t) :
    (t.stop = s.stop ∧ t.thread = .running ∧ t.serving = true) ∨
      (t.stop = s.stop ∧ t.thread = s.thread ∧ t.serving = s.serving) ∨
      a = .stop ∨
      (a = .loop ∧ s.stop = true ∧ t = { s with thread := .finished }) := by
  have hconnection : ∀ (s : Network) (ec : ErrorCode), (s.onNewConnection ec).stop = s.stop ∧
      (s.onNewConnection ec).thread = s.thread ∧
        (s.onNewConnection ec).serving = s.serving := by
    intro s ec
    unfold onNewConnection
    split_ifs <;> exact ⟨rfl, rfl, rfl⟩
  cases a with
  | listenAsync bound =>
    simp only [step, listenAsync] at hstep
    split_ifs at hstep
    · rw [startThread_eq hstep]
      exact Or.inl ⟨rfl, rfl, rfl⟩
    · cases hstep
      exact Or.inr (Or.inl ⟨rfl, rfl, rfl⟩)
  | listenSync bound ec =>
    simp only [step, listenSync] at hstep
    split_ifs at hstep
    · rw [startThread_eq hstep]
      exact Or.inl ⟨(hconnection _ ec).1, rfl, rfl⟩
    · cases hstep
      exact Or.inr (Or.inl ⟨rfl, rfl, rfl⟩)
  | connect ec =>
    simp only [step, connect] at hstep
    split_ifs at hstep
    · rw [startThread_eq hstep]
      exact Or.inl ⟨rfl, rfl, rfl⟩
    · cases hstep
      exact Or.inr (Or.inl ⟨rfl, rfl, rfl⟩)
  | stop => exact Or.inr (Or.inr (Or.inl rfl))
  | newConnection ec =>
    simp only [step] at hstep
    split_ifs at hstep
    cases hstep
    exact Or.inr (Or.inl (hconnection _ ec))
  | headerRead ec readSize length =>
    refine Or.inr (Or.inl ?_)
    simp only [step] at hstep
    split at hstep
    · cases hstep
      simp only [onHeaderRead]
      split_ifs
      · exact setDisconnectedStatus_frame _ ec
      · exact ⟨rfl, rfl, rfl⟩
      · exact ⟨rfl, rfl, rfl⟩
    · cases hstep
  | bodyRead ec readSize =>
    refine Or.inr (Or.inl ?_)
    simp only [step] at hstep
    split at hstep
    · cases hstep
      simp only [onBodyRead]
      split_ifs
      · exact setDisconnectedStatus_frame _ ec
      · exact ⟨rfl, rfl, rfl⟩
      · exact ⟨rfl, rfl, rfl⟩
    · cases hstep
  | loop =>
    simp only [step] at hstep
    split at hstep
    · cases hstep
      split_ifs with hstop
      · exact Or.inr (Or.inr (Or.inr ⟨rfl, hstop, rfl⟩))
      · exact Or.inr (Or.inl ⟨rfl, rfl, rfl⟩)
    · cases hstep

theorem NeverStopped.step {s t : Network} {a : Action} (h : NeverStopped s) (ha : a ≠ .stop)
    (hstep : step s a = some t) : NeverStopped t ∧ (s.serving → t.serving) := by
  rcases step_loop hstep with ⟨hstop, hthread, hserving⟩ | ⟨hstop, hthread, hserving⟩ | hs | hl
  · exact ⟨⟨hstop.trans h.stop, fun _ => hthread⟩, fun _ => hserving⟩
  · exact ⟨⟨hstop.trans h.stop, fun hs => hthread.trans (h.running (hserving ▸ hs))⟩,
      fun hs => hserving.trans hs⟩
  · exact absurd hs ha
  · rw [h.stop] at hl
    cases hl.2.1

/-- Without a call of `stop`, a network that serves keeps serving. -/
theorem NeverStopped.run {s t : Network} {l : List Action} (h : NeverStopped s)
    (hl : Action.stop ∉ l) (hrun : Run.run Network.step s l = some t) :
    NeverStopped t ∧ (s.serving → t.serving) :=
  Run.run_invariant (I := fun t => NeverStopped t ∧ (s.serving → t.serving))
    (fun _ _ _ hI ha hstep => (hI.1.step ha hstep).imp_right fun hs => hs ∘ hI.2) ⟨h, id⟩
    (Run.along_of_mem (P := fun _ a => a ≠ Action.stop) (fun _ ha _ he => hl (he ▸ ha)) s) hrun

/-- Nothing resets the flag. -/
theorem stop_run {s t : Network} {l : List Action} (hrun : Run.run step s l = some t)
    (h : s.stop = true ∨ Action.stop ∈ l) : t.stop = true := by
  induction l generalizing s with
  | nil =>
    cases hrun
    exact h.resolve_right List.not_mem_nil
  | cons a l ih =>
    obtain ⟨u, hu, hrun⟩ := Option.bind_eq_some_iff.1 hrun
    refine ih hrun ?_
    by_cases hl : Action.stop ∈ l
    · exact Or.inr hl
    · refine Or.inl ?_
      by_cases ha : a = .stop
      · subst ha
        cases hu
        rfl
      · have hs : s.stop = true :=
          h.resolve_right fun hmem => (List.mem_cons.1 hmem).elim (fun he => ha he.symm) hl
        rcases step_loop hu with ⟨hstop, -⟩ | ⟨hstop, -⟩ | hstop | ⟨-, -, rfl⟩
        · exact hstop.trans hs
        · exact hstop.trans hs
        · exact absurd hstop ha
        · exact hs

/-- **After a successful listen or connect the loop runs until the next stop exactly when `stop` has
never been called.** -/
theorem keepsRunning_iff {l : List Action} {s : Network} (hrun : Run.run step {} l = some s)
    (hserving : s.serving) : KeepsRunning s ↔ Action.stop ∉ l := by
  constructor
  · intro hkeeps hmem
    -- the flag is still set when the new thread looks at it
    have hstop : s.stop = true := stop_run hrun (Or.inr hmem)
    have hrunning : s.thread = .running := hkeeps [] s rfl List.not_mem_nil
    have hloop : Run.run step s [.loop] = some { s with thread := .finished } := by
      simp [step, hrunning, hstop]
    have hfinished := hkeeps [.loop] _ hloop (by simp)
    cases hfinished
  · intro hl l' t hrun' hl'
    have h : NeverStopped s := (NeverStopped.run ⟨rfl, by decide⟩ hl hrun).1
    obtain ⟨h', hserving'⟩ := h.run hl' hrun'
    exact h'.running (hserving' hserving)

/-- The first session. -/
theorem keepsRunning_iff_firstSession :
    ∃ s, Run.run step {} [.listenAsync true, .newConnection .ok] = some s ∧
      (KeepsRunning s ↔ Action.stop ∉ [.listenAsync true, .newConnection .ok]) :=
  ⟨_, rfl, keepsRunning_iff (l := [.listenAsync true, .newConnection .ok]) rfl rfl⟩

/-- The client of the first session disconnects, and the server stops and listens again. -/
theorem loop_ends_after_restart :
    ¬ ∀ (l : List Action) (s : Network), Run.run step {} l = some s → s.serving →
      KeepsRunning s := by
  intro h
  have h' := h
    [.listenAsync true, .newConnection .ok, .headerRead .eof 0 0, .stop, .listenAsync true]
    _ rfl rfl [.loop] _ rfl (by decide)
  cases h'

/-! ### The read chain -/

/-- A read that does not go on ends with an error the status knows, as long as it is connected. -/
def EndsDisconnected (s : Network) : Action → Prop
  | .headerRead ec readSize _ =>
    s.connected = .connected → ec = .ok ∧ readSize = 8 ∨ ec.disconnects
  | .bodyRead ec readSize =>
    s.connected = .connected →
      (ec = .ok ∧ s.reading = some (.body readSize)) ∨ ec.disconnects
  | _ => True

instance (s : Network) : ∀ a, Decidable (EndsDisconnected s a)
  | .headerRead ec readSize _ =>
    inferInstanceAs (Decidable
      (s.connected = .connected → ec = .ok ∧ readSize = 8 ∨ ec.disconnects))
  | .bodyRead ec readSize =>
    inferInstanceAs (Decidable (s.connected = .connected →
      (ec = .ok ∧ s.reading = some (.body readSize)) ∨ ec.disconnects))
  | .listenAsync _ | .listenSync .. | .connect _ | .stop | .newConnection _ | .loop =>
    .isTrue trivial

/-- The status is connected only while a read is outstanding. -/
def ConnectedReading (s : Network) : Prop := s.connected = .connected → s.reading.isSome

/-- A read ends with an error; if the status is connected, it is one the status knows. -/
theorem ConnectedReading.setDisconnectedStatus {s : Network} {ec : ErrorCode}
    (h : s.connected = .connected → ec.disconnects) :
    ConnectedReading (s.setDisconnectedStatus ec) := by
  intro hconnected
  unfold Network.setDisconnectedStatus at hconnected ⊢
  split_ifs at hconnected with hec
  exact absurd (h hconnected) hec

theorem ConnectedReading.onNewConnection {s : Network} (ec : ErrorCode) :
    ConnectedReading (s.onNewConnection ec) := by
  unfold Network.onNewConnection
  split_ifs
  · exact fun _ => rfl
  · exact fun h => by cases h

/-- **Every step keeps a read outstanding or ends the connection.** -/
theorem ConnectedReading.step {s t : Network} {a : Action} (h : ConnectedReading s)
    (hends : EndsDisconnected s a) (hstep : step s a = some t) : ConnectedReading t := by
  have hthread : ∀ {s t : Network}, ConnectedReading s → s.startThread = some t →
      ConnectedReading t := fun h ht => by
    rw [startThread_eq ht]
    exact h
  cases a with
  | listenAsync bound =>
    simp only [Network.step, listenAsync] at hstep
    split_ifs at hstep
    · exact hthread (s := { (s.openAcceptor bound).2 with accepting := true }) h hstep
    · cases hstep
      exact h
  | listenSync bound ec =>
    simp only [Network.step, listenSync] at hstep
    split_ifs at hstep
    · exact hthread (.onNewConnection ec) hstep
    · cases hstep
      exact h
  | connect ec =>
    simp only [Network.step, connect] at hstep
    split_ifs at hstep
    · exact hthread (fun _ => rfl) hstep
    · cases hstep
      exact h
  | stop =>
    cases hstep
    exact fun h => by cases h
  | newConnection ec =>
    simp only [Network.step] at hstep
    split_ifs at hstep
    cases hstep
    exact .onNewConnection ec
  | headerRead ec readSize length =>
    simp only [Network.step] at hstep
    split at hstep
    · cases hstep
      unfold onHeaderRead
      split_ifs with hec hsize
      · exact .setDisconnectedStatus fun hc => (hends hc).resolve_left fun hok => hec hok.1
      · intro hc
        rcases hends hc with ⟨-, hread⟩ | hdisconnects
        · exact absurd hread hsize
        · rw [not_not.1 hec] at hdisconnects
          cases hdisconnects
      · exact fun _ => rfl
    · cases hstep
  | bodyRead ec readSize =>
    simp only [Network.step] at hstep
    split at hstep
    · rename_i length hreading
      cases hstep
      unfold onBodyRead
      split_ifs with hec hsize
      · exact .setDisconnectedStatus fun hc => (hends hc).resolve_left fun hok => hec hok.1
      · intro hc
        rcases hends hc with ⟨-, hread⟩ | hdisconnects
        · rw [hreading] at hread
          cases hread
          exact absurd rfl hsize
        · rw [not_not.1 hec] at hdisconnects
          cases hdisconnects
      · exact fun _ => rfl
    · cases hstep
  | loop =>
    simp only [Network.step] at hstep
    split at hstep
    · cases hstep
      split_ifs <;> exact h
    · cases hstep

/-- **Connected means reading**, if every read that does not go on ends with an error the status
knows. -/
theorem reading_of_connected {l : List Action} {s : Network} (hrun : Run.run step {} l = some s)
    (hends : Run.Along step EndsDisconnected {} l) (hconnected : s.isConnected) :
    s.reading.isSome := by
  have h : ConnectedReading s :=
    Run.run_invariant (fun _ _ _ h hP hstep => h.step hP hstep) (fun h => by cases h) hends hrun
  exact h (by simpa using (Bool.and_eq_true_iff.1 hconnected).2)

/-- A client connects and sends a message. -/
def oneMessage : List Action :=
  [.listenAsync true, .newConnection .ok, .headerRead .ok 8 4, .bodyRead .ok 4]

theorem reading_of_connected_oneMessage :
    ∃ s, Run.run step {} oneMessage = some s ∧ s.isConnected ∧ s.reading.isSome :=
  ⟨_, rfl, rfl, reading_of_connected (l := oneMessage) rfl (by decide) rfl⟩

/-- The connection times out while the header of a message is read. -/
theorem connected_without_read :
    ¬ ∀ (l : List Action) (s : Network), Run.run step {} l = some s → s.isConnected →
      s.reading.isSome := by
  intro h
  have h' := h [.listenAsync true, .newConnection .ok, .headerRead (.other 110) 0 0] _ rfl rfl
  cases h'

/-- **The condition is exact**: any other end of a read leaves a connected network without one. -/
theorem connected_without_read_of_not {s t : Network} {a : Action} (hconnected : s.isConnected)
    (hstep : step s a = some t) (hends : ¬ EndsDisconnected s a) :
    t.isConnected ∧ t.reading = none := by
  have hsame : ∀ (s : Network) (ec : ErrorCode), ¬ ec.disconnects →
      s.setDisconnectedStatus ec = s := fun s ec h => by simp [setDisconnectedStatus, h]
  cases a with
  | headerRead ec readSize length =>
    simp only [EndsDisconnected, Classical.not_imp, not_or] at hends
    obtain ⟨-, hread, hec⟩ := hends
    simp only [step] at hstep
    split at hstep
    · cases hstep
      unfold onHeaderRead
      simp only [hsame _ ec hec]
      split_ifs with h1 h2
      · exact ⟨hconnected, rfl⟩
      · exact ⟨hconnected, rfl⟩
      · exact absurd ⟨not_not.1 h1, not_not.1 h2⟩ hread
    · cases hstep
  | bodyRead ec readSize =>
    simp only [EndsDisconnected, Classical.not_imp, not_or] at hends
    obtain ⟨-, hread, hec⟩ := hends
    simp only [step] at hstep
    split at hstep
    · rename_i length hreading
      cases hstep
      unfold onBodyRead
      simp only [hsame _ ec hec]
      split_ifs with h1 h2
      · exact ⟨hconnected, rfl⟩
      · exact ⟨hconnected, rfl⟩
      · exact absurd ⟨not_not.1 h1, by rw [hreading, not_not.1 h2]⟩ hread
    · cases hstep
  | _ => exact absurd trivial hends

end Network

end Owlcat
