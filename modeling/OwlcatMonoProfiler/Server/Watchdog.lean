import OwlcatMonoProfiler.Network.Connection

/-!
# The watchdog of the server

The part of `mono_profiler_server::details` that listens: `start`, which the application may call
any number of times, and the thread it starts, which listens anew when a connection is lost.  A
function that blocks, or that another thread may come in between, is several actions.

* `Watchdog`: the members, and where `start` and the watchdog are;
* `Action`, `step`: what the threads do, in any order; `none` is also the end of the process by an
  exception nobody catches;
* `Before`, `After`: what holds until the watchdog has called `m_network.stop`, and from then on;
* `served_of_run`: how many clients a server has in its life.
-/

namespace Owlcat

/-- Where the last call of `start` is. -/
inductive StartCall
  | returned
  | listening
  | accepting
  | joining
  deriving DecidableEq

/-- Where the watchdog is; `watching` is the head of its loop. -/
inductive WatchdogThread
  | none
  | watching
  | stopping
  | listening
  | accepting
  deriving DecidableEq

/-- The members of `mono_profiler_server::details`, and how many clients have been accepted. -/
structure Watchdog where
  network : Network := {}
  waitForConnection : Bool := false
  stopWatchdog : Bool := false
  call : StartCall := .returned
  thread : WatchdogThread := .none
  clients : ℕ := 0
  deriving DecidableEq

namespace Watchdog

/-! ### The threads -/

/-- The rest of `start` after listening, up to `m_watchdog.join()`. -/
def joins (s : Watchdog) : Watchdog := { s with stopWatchdog := true, call := .joining }

/-- `start`, up to listening. -/
def start (s : Watchdog) (waitForConnection : Bool) : Watchdog :=
  let s := { s with waitForConnection := waitForConnection }
  if s.network.isConnected then s.joins else { s with call := .listening }

/-- `listen_sync` up to `accept`, or `listen_async`; `false` is an exception. -/
def listens (s : Watchdog) (bound : Bool) : Option (Bool × Network) :=
  let r := s.network.openAcceptor bound
  if r.1 ∧ s.waitForConnection = false then (s.network.listenAsync bound).map fun n => (true, n)
  else some r

/-- `start` listens; an exception leaves it. -/
def startListens (s : Watchdog) (bound : Bool) : Option Watchdog :=
  (s.listens bound).map fun (listening, n) =>
    let s := { s with network := n }
    if listening = false then { s with call := .returned }
    else if s.waitForConnection then { s with call := .accepting }
    else s.joins

/-- The rest of `listen_sync` after `accept`. -/
def accept (s : Watchdog) (ec : ErrorCode) : Option Watchdog :=
  (s.network.onNewConnection ec).startThread.map fun n =>
    { s with network := n, clients := if ec = .ok then s.clients + 1 else s.clients }

/-- The condition of the watchdog. -/
def watch (s : Watchdog) : Watchdog :=
  if s.network.isConnected || s.network.isListening then s else { s with thread := .stopping }

/-- The watchdog stops the network. -/
def watchStops (s : Watchdog) : Watchdog :=
  { s with network := s.network.requestStop, thread := .listening }

/-- The watchdog listens; an exception ends the process. -/
def watchListens (s : Watchdog) (bound : Bool) : Option Watchdog :=
  (s.listens bound).bind fun (listening, n) =>
    let s := { s with network := n }
    if listening = false then none
    else some { s with thread := if s.waitForConnection then .accepting else .watching }

/-- The handlers of a completed operation. -/
def IsHandler : Network.Action → Bool
  | .newConnection _ | .headerRead .. | .bodyRead .. => true
  | _ => false

/-- The thread of the I/O loop runs a handler. -/
def handler (s : Watchdog) (a : Network.Action) : Option Watchdog :=
  if IsHandler a ∧ s.network.thread = .running ∧ s.network.stop = false then
    (s.network.step a).map fun n =>
      { s with
        network := n
        clients := if a = .newConnection .ok then s.clients + 1 else s.clients }
  else none

/-! ### Runs -/

inductive Action
  | start (waitForConnection : Bool)
  | startListens (bound : Bool)
  | startAccepts (ec : ErrorCode)
  | startJoins
  | watch
  | watchStops
  | watchListens (bound : Bool)
  | watchAccepts (ec : ErrorCode)
  | handler (a : Network.Action)
  | loop
  deriving DecidableEq

/-- A new watchdog is started when the old one, if there is one, has left its loop. -/
def step (s : Watchdog) : Action → Option Watchdog
  | .start waitForConnection =>
    if s.call = .returned then some (s.start waitForConnection) else none
  | .startListens bound => if s.call = .listening then s.startListens bound else none
  | .startAccepts ec => if s.call = .accepting then (s.accept ec).map joins else none
  | .startJoins =>
    if s.call = .joining ∧ (s.thread = .none ∨ s.thread = .watching) then
      some { s with stopWatchdog := false, call := .returned, thread := .watching }
    else none
  | .watch => if s.thread = .watching ∧ s.stopWatchdog = false then some s.watch else none
  | .watchStops => if s.thread = .stopping then some s.watchStops else none
  | .watchListens bound => if s.thread = .listening then s.watchListens bound else none
  | .watchAccepts ec =>
    if s.thread = .accepting then (s.accept ec).map ({ · with thread := .watching }) else none
  | .handler a => s.handler a
  | .loop => (s.network.step .loop).map ({ s with network := · })

/-! ### What the functions do -/

section Cases

variable {s t : Watchdog}

/-- An exception leaves the acceptor as it was when it is open, otherwise the acceptor is open
afterwards. -/
theorem listens_cases {bound : Bool} {r : Bool × Network} (h : s.listens bound = some r) :
    (r = (false, (s.network.openAcceptor bound).2)) ∨
      s.network.acceptorOpen = false ∧
        (s.waitForConnection = true ∧ r = (true, (s.network.openAcceptor bound).2) ∨
          s.waitForConnection = false ∧
            r = (true, { (s.network.openAcceptor bound).2 with
              accepting := true, thread := .running, serving := true })) := by
  simp only [listens] at h
  split at h
  · next hasync =>
    obtain ⟨n, hn, rfl⟩ := Option.map_eq_some_iff.1 h
    rw [Network.listenAsync] at hn
    dsimp only at hn
    rw [if_pos hasync.1] at hn
    have hopen : s.network.acceptorOpen = false := by
      have := hasync.1
      simp only [Network.openAcceptor, Bool.and_eq_true, Bool.not_eq_true'] at this
      exact this.1
    exact .inr ⟨hopen, .inr ⟨hasync.2, by rw [Network.startThread_eq hn]⟩⟩
  · next hsync =>
    cases h
    cases hopened : (s.network.openAcceptor bound).1 with
    | false => exact .inl (Prod.ext hopened rfl)
    | true =>
      have hopen : s.network.acceptorOpen = false := by
        have := hopened
        simp only [Network.openAcceptor, Bool.and_eq_true, Bool.not_eq_true'] at this
        exact this.1
      have hwait : s.waitForConnection = true := by
        rw [hopened] at hsync
        simpa using hsync
      exact .inr ⟨hopen, .inl ⟨hwait, Prod.ext hopened rfl⟩⟩

/-- The network when `listen_async` returns. -/
def listening (n : Network) : Network :=
  { n with
    listening := true, acceptorOpen := true, accepting := true, thread := .running
    serving := true }

theorem startListens_cases {bound : Bool} (h : s.startListens bound = some t) :
    t = { s with network := (s.network.openAcceptor bound).2, call := .returned } ∨
      s.network.acceptorOpen = false ∧
        (s.waitForConnection = true ∧
            t = { s with network := (s.network.openAcceptor bound).2, call := .accepting } ∨
          s.waitForConnection = false ∧ t = joins { s with network := listening s.network }) := by
  obtain ⟨r, hr, rfl⟩ := Option.map_eq_some_iff.1 h
  rcases listens_cases hr with rfl | ⟨hopen, ⟨hwait, rfl⟩ | ⟨hwait, rfl⟩⟩
  · exact .inl rfl
  · exact .inr ⟨hopen, .inl ⟨hwait, by simp [hwait]⟩⟩
  · exact .inr ⟨hopen, .inr ⟨hwait, by simp [hwait, listening, Network.openAcceptor]⟩⟩

theorem watchListens_cases {bound : Bool} (h : s.watchListens bound = some t) :
    s.network.acceptorOpen = false ∧
      (s.waitForConnection = true ∧
          t = { s with network := (s.network.openAcceptor bound).2, thread := .accepting } ∨
        s.waitForConnection = false ∧
          t = { s with network := listening s.network, thread := .watching }) := by
  obtain ⟨r, hr, ht⟩ := Option.bind_eq_some_iff.1 h
  rcases listens_cases hr with rfl | ⟨hopen, ⟨hwait, rfl⟩ | ⟨hwait, rfl⟩⟩
  · cases ht
  · exact ⟨hopen, .inl ⟨hwait, by simpa [hwait] using ht.symm⟩⟩
  · exact ⟨hopen, .inr ⟨hwait, by simpa [hwait, listening, Network.openAcceptor] using ht.symm⟩⟩

theorem accept_cases {ec : ErrorCode} (h : s.accept ec = some t) :
    t = { s with
      network := { s.network.onNewConnection ec with thread := .running, serving := true }
      clients := if ec = .ok then s.clients + 1 else s.clients } := by
  obtain ⟨n, hn, rfl⟩ := Option.map_eq_some_iff.1 h
  rw [Network.startThread_eq hn]

theorem onHeaderRead_frame (n : Network) (ec : ErrorCode) (readSize length : ℕ) :
    ∃ status reading, n.onHeaderRead ec readSize length =
      { n with connected := status, reading := reading } := by
  simp only [Network.onHeaderRead, Network.setDisconnectedStatus]
  split_ifs
  all_goals exact ⟨_, _, rfl⟩

theorem onBodyRead_frame (n : Network) (ec : ErrorCode) (readSize length : ℕ) :
    ∃ status reading, n.onBodyRead ec readSize length =
      { n with connected := status, reading := reading } := by
  simp only [Network.onBodyRead, Network.setDisconnectedStatus,
    Network.readMessageHeaderFromSocket]
  split_ifs
  all_goals exact ⟨_, _, rfl⟩

/-- A handler accepts a client, or leaves acceptor and socket alone. -/
theorem handler_cases {a : Network.Action} (h : s.handler a = some t) :
    s.network.stop = false ∧
      ((∃ ec, s.network.accepting = true ∧ t = { s with
          network := { s.network with accepting := false }.onNewConnection ec
          clients := if ec = .ok then s.clients + 1 else s.clients }) ∨
        ∃ status reading, t = { s with
          network := { s.network with connected := status, reading := reading } }) := by
  simp only [handler] at h
  split at h
  · next hruns =>
    obtain ⟨hhandler, -, hstop⟩ := hruns
    obtain ⟨n, hn, rfl⟩ := Option.map_eq_some_iff.1 h
    refine ⟨hstop, ?_⟩
    cases a with
    | newConnection ec =>
      simp only [Network.step] at hn
      split at hn
      · next haccepting =>
        cases hn
        exact .inl ⟨ec, haccepting, by simp⟩
      · cases hn
    | headerRead ec readSize length =>
      right
      simp only [Network.step] at hn
      split at hn
      · cases hn
        obtain ⟨status, reading, hread⟩ := onHeaderRead_frame s.network ec readSize length
        exact ⟨status, reading, by rw [hread, if_neg (by simp)]⟩
      · cases hn
    | bodyRead ec readSize =>
      right
      simp only [Network.step] at hn
      split at hn
      · next length _ =>
        cases hn
        obtain ⟨status, reading, hread⟩ := onBodyRead_frame s.network ec readSize length
        exact ⟨status, reading, by rw [hread, if_neg (by simp)]⟩
      · cases hn
    | _ => cases hhandler
  · cases h

/-- What is known when a step has been taken. -/
def Takes (s t : Watchdog) : Action → Prop
  | .start waitForConnection => t = s.start waitForConnection
  | .startListens bound => s.startListens bound = some t
  | .startAccepts ec => s.call = .accepting ∧ ∃ u, s.accept ec = some u ∧ t = u.joins
  | .startJoins => s.call = .joining ∧ (s.thread = .none ∨ s.thread = .watching) ∧
      t = { s with stopWatchdog := false, call := .returned, thread := .watching }
  | .watch => s.thread = .watching ∧ t = s.watch
  | .watchStops => s.thread = .stopping ∧ t = s.watchStops
  | .watchListens bound => s.thread = .listening ∧ s.watchListens bound = some t
  | .watchAccepts ec =>
    s.thread = .accepting ∧ ∃ u, s.accept ec = some u ∧ t = { u with thread := .watching }
  | .handler a => s.handler a = some t
  | .loop => ∃ thread, t = { s with network := { s.network with thread := thread } }

theorem takes_of_step {a : Action} (h : s.step a = some t) : s.Takes t a := by
  cases a with
  | startAccepts ec =>
    simp only [step] at h
    split_ifs at h with hcall
    obtain ⟨u, hu, rfl⟩ := Option.map_eq_some_iff.1 h
    exact ⟨hcall, u, hu, rfl⟩
  | watchAccepts ec =>
    simp only [step] at h
    split_ifs at h with hthread
    obtain ⟨u, hu, rfl⟩ := Option.map_eq_some_iff.1 h
    exact ⟨hthread, u, hu, rfl⟩
  | startJoins =>
    simp only [step] at h
    split_ifs at h with hjoins
    cases h
    exact ⟨hjoins.1, hjoins.2, rfl⟩
  | watch =>
    simp only [step] at h
    split_ifs at h with hwatching
    cases h
    exact ⟨hwatching.1, rfl⟩
  | watchStops =>
    simp only [step] at h
    split_ifs at h with hstopping
    cases h
    exact ⟨hstopping, rfl⟩
  | watchListens bound =>
    simp only [step] at h
    split_ifs at h with hlistening
    exact ⟨hlistening, h⟩
  | start waitForConnection =>
    simp only [step] at h
    split_ifs at h
    cases h
    rfl
  | startListens bound =>
    simp only [step] at h
    split_ifs at h
    exact h
  | handler a => exact h
  | loop =>
    obtain ⟨n, hn, rfl⟩ := Option.map_eq_some_iff.1 h
    simp only [Network.step] at hn
    split at hn
    · split_ifs at hn
      all_goals
        cases hn
        exact ⟨_, rfl⟩
    · cases hn

end Cases

/-! ### Before the network is stopped -/

/-- What holds until the watchdog stops the network: the acceptor is opened once. -/
structure Before (s : Watchdog) : Prop where
  running : s.network.stop = false
  closed : s.network.acceptorOpen = false → s.clients = 0 ∧ s.network.accepting = false ∧
    s.network.socketOpen = false ∧ (s.call = .returned ∨ s.call = .listening) ∧ s.thread = .none
  thread : s.thread = .none ∨ s.thread = .watching ∨ s.thread = .stopping
  pending : s.network.accepting = true ∨ s.call = .accepting →
    s.clients = 0 ∧ s.network.listening = true
  alone : s.network.accepting = true → s.call ≠ .accepting
  stopping : s.thread = .stopping → s.network.accepting = false ∧ s.call ≠ .accepting
  one : s.clients ≤ 1

/-- What holds once it has: the acceptor is opened once more, and no handler runs. -/
structure After (s : Watchdog) : Prop where
  stopped : s.network.stop = true
  thread : s.thread = .watching ∨ s.thread = .listening ∨ s.thread = .accepting
  closed : s.network.acceptorOpen = false → s.thread = .listening ∧ s.call ≠ .accepting ∧
    s.clients ≤ 1 ∧ s.network.isConnected = false
  pending : s.call = .accepting ∨ s.thread = .accepting → s.clients ≤ 1 ∧
    s.network.isConnected = false ∧ s.network.listening = true
  call : s.call = .accepting → s.thread = .listening
  watching : s.thread = .watching →
    s.network.isConnected = true ∨ s.network.listening = true
  two : s.clients ≤ 2
  served : s.clients = 2 → s.network.isConnected = true

section Steps

variable {s t : Watchdog}

theorem before_init : Before {} :=
  ⟨rfl, fun _ => ⟨rfl, rfl, rfl, .inl rfl, rfl⟩, .inl rfl, nofun, nofun, nofun, by decide⟩

theorem Before.open_of_connected (h : Before s) (hconnected : s.network.isConnected = true) :
    s.network.acceptorOpen = true := by
  by_contra hclosed
  obtain ⟨-, -, hsocket, -⟩ := h.closed (by simpa using hclosed)
  rw [Network.isConnected, hsocket] at hconnected
  cases hconnected

theorem Before.joins (h : Before s) (hopen : s.network.acceptorOpen = true) : Before s.joins where
  running := h.running
  closed hclosed := absurd (hopen.symm.trans hclosed) (by decide)
  thread := h.thread
  pending hpending := h.pending (hpending.imp_right nofun)
  alone := nofun
  stopping hstopping := ⟨(h.stopping hstopping).1, nofun⟩
  one := h.one

theorem Before.start (h : Before s) (waitForConnection : Bool) :
    Before (s.start waitForConnection) := by
  unfold Watchdog.start
  dsimp only
  have hset : Before { s with waitForConnection := waitForConnection } :=
    ⟨h.running, h.closed, h.thread, h.pending, h.alone, h.stopping, h.one⟩
  split
  · next hconnected => exact hset.joins (h.open_of_connected hconnected)
  · refine ⟨h.running, fun hclosed => ?_, h.thread, fun hpending => ?_, nofun, fun hstopping => ?_,
      h.one⟩
    · obtain ⟨hclients, haccepting, hsocket, -, hthread⟩ := h.closed hclosed
      exact ⟨hclients, haccepting, hsocket, .inr rfl, hthread⟩
    · exact h.pending (hpending.imp_right nofun)
    · exact ⟨(h.stopping hstopping).1, nofun⟩

theorem Before.startListens (h : Before s) {bound : Bool}
    (hstep : s.startListens bound = some t) : Before t := by
  rcases startListens_cases hstep with rfl | ⟨hclosed, ⟨-, rfl⟩ | ⟨-, rfl⟩⟩
  · refine ⟨h.running, nofun, h.thread, fun hpending => ?_, nofun, fun hstopping => ?_, h.one⟩
    · exact ⟨(h.pending (hpending.imp_right nofun)).1, rfl⟩
    · exact ⟨(h.stopping hstopping).1, nofun⟩
  · obtain ⟨hclients, haccepting, -, -, hthread⟩ := h.closed hclosed
    refine ⟨h.running, nofun, h.thread, fun _ => ⟨hclients, rfl⟩, fun ha => ?_,
      fun hstopping => ?_, h.one⟩
    · exact absurd (haccepting.symm.trans ha) (by decide)
    · exact absurd (hthread.symm.trans hstopping) (by decide)
  · obtain ⟨hclients, -, -, -, hthread⟩ := h.closed hclosed
    refine ⟨h.running, nofun, h.thread, fun _ => ⟨hclients, rfl⟩, nofun, fun hstopping => ?_, h.one⟩
    exact absurd (hthread.symm.trans hstopping) (by decide)

/-- `on_new_connection` and what follows it, for the one client that is waited for. -/
theorem Before.startAccepts (h : Before s) (hcall : s.call = .accepting) {ec : ErrorCode}
    (hstep : s.accept ec = some t) : Before t.joins := by
  obtain ⟨hclients, hlistening⟩ := h.pending (.inr hcall)
  have hopen : s.network.acceptorOpen = true := by
    by_contra hclosed
    obtain ⟨-, -, -, hcalls, -⟩ := h.closed (by simpa using hclosed)
    rw [hcall] at hcalls
    exact absurd hcalls (by decide)
  have haccepting : s.network.accepting = false := by
    by_contra haccepting
    exact h.alone (by simpa using haccepting) hcall
  obtain rfl := accept_cases hstep
  unfold Network.onNewConnection
  split
  all_goals
    refine ⟨h.running, fun hclosed => ?_, h.thread, fun hpending => ?_, nofun,
      fun hstopping => ⟨haccepting, nofun⟩, by simp [Watchdog.joins, hclients]⟩
    · exact absurd (hopen.symm.trans hclosed) (by decide)
    · rcases hpending with ha | hc
      · exact absurd (haccepting.symm.trans ha) (by decide)
      · cases hc

theorem Before.startJoins (h : Before s) (hcall : s.call = .joining) :
    Before { s with stopWatchdog := false, call := .returned, thread := .watching } where
  running := h.running
  closed hclosed := by
    obtain ⟨-, -, -, hcalls, -⟩ := h.closed hclosed
    rw [hcall] at hcalls
    exact absurd hcalls (by decide)
  thread := .inr (.inl rfl)
  pending hpending := h.pending (hpending.imp_right nofun)
  alone := nofun
  stopping := nofun
  one := h.one

theorem Before.watch (h : Before s) (hthread : s.thread = .watching) : Before s.watch := by
  have hopen : s.network.acceptorOpen = true := by
    by_contra hclosed
    obtain ⟨-, -, -, -, hnone⟩ := h.closed (by simpa using hclosed)
    exact absurd (hthread.symm.trans hnone) (by decide)
  unfold Watchdog.watch
  split
  · exact h
  · next hidle =>
    have hlistening : s.network.listening = false := by
      simp only [Network.isListening, hopen, Bool.true_and, Bool.or_eq_true, not_or] at hidle
      simpa using hidle.2
    refine ⟨h.running, fun hclosed => ?_, .inr (.inr rfl), h.pending, h.alone, fun _ => ⟨?_, ?_⟩,
      h.one⟩
    · exact absurd (hopen.symm.trans hclosed) (by decide)
    · by_contra ha
      obtain ⟨-, hl⟩ := h.pending (.inl (by simpa using ha))
      exact absurd (hlistening.symm.trans hl) (by decide)
    · intro hc
      obtain ⟨-, hl⟩ := h.pending (.inr hc)
      exact absurd (hlistening.symm.trans hl) (by decide)

theorem Before.watchStops (h : Before s) (hthread : s.thread = .stopping) :
    After s.watchStops where
  stopped := rfl
  thread := .inr (.inl rfl)
  closed _ := ⟨rfl, (h.stopping hthread).2, h.one, rfl⟩
  pending hpending := by
    rcases hpending with hc | ht
    · exact absurd hc (h.stopping hthread).2
    · cases ht
  call hc := absurd hc (h.stopping hthread).2
  watching := nofun
  two := h.one.trans (by decide)
  served hc := absurd (hc.symm.trans_le h.one) (by decide)

theorem Before.handler (h : Before s) {a : Network.Action} (hstep : s.handler a = some t) :
    Before t := by
  obtain ⟨-, ⟨ec, haccepting, rfl⟩ | ⟨status, reading, rfl⟩⟩ := handler_cases hstep
  · obtain ⟨hclients, -⟩ := h.pending (.inl haccepting)
    have hcall := h.alone haccepting
    have hopen : s.network.acceptorOpen = true := by
      by_contra hclosed
      obtain ⟨-, ha, -⟩ := h.closed (by simpa using hclosed)
      exact absurd (haccepting.symm.trans ha) (by decide)
    unfold Network.onNewConnection
    split
    all_goals
      refine ⟨h.running, fun hclosed => ?_, h.thread, fun hpending => ?_, nofun,
        fun _ => ⟨rfl, hcall⟩, by simp [hclients]⟩
      · exact absurd (hopen.symm.trans hclosed) (by decide)
      · rcases hpending with ha | hc
        · cases ha
        · exact absurd hc hcall
  · exact ⟨h.running, h.closed, h.thread, h.pending, h.alone, h.stopping, h.one⟩

/-- **Until the watchdog stops the network, and when it does.** -/
theorem Before.step (h : Before s) {a : Action} (hstep : s.step a = some t) :
    Before t ∨ After t := by
  have htakes := takes_of_step hstep
  cases a with
  | start waitForConnection =>
    obtain rfl := htakes
    exact .inl (h.start waitForConnection)
  | startListens bound => exact .inl (h.startListens htakes)
  | startAccepts ec =>
    obtain ⟨hcall, u, hu, rfl⟩ := htakes
    exact .inl (h.startAccepts hcall hu)
  | startJoins =>
    obtain ⟨hcall, -, rfl⟩ := htakes
    exact .inl (h.startJoins hcall)
  | watch =>
    obtain ⟨hthread, rfl⟩ := htakes
    exact .inl (h.watch hthread)
  | watchStops =>
    obtain ⟨hthread, rfl⟩ := htakes
    exact .inr (h.watchStops hthread)
  | watchListens bound => exact absurd (htakes.1 ▸ h.thread) (by decide)
  | watchAccepts ec => exact absurd (htakes.1 ▸ h.thread) (by decide)
  | handler a => exact .inl (h.handler htakes)
  | loop =>
    obtain ⟨thread, rfl⟩ := htakes
    exact .inl ⟨h.running, h.closed, h.thread, h.pending, h.alone, h.stopping, h.one⟩

/-! ### After the network is stopped -/

theorem After.joins (h : After s) : After s.joins where
  stopped := h.stopped
  thread := h.thread
  closed hclosed := by
    obtain ⟨hthread, -, hone, hidle⟩ := h.closed hclosed
    exact ⟨hthread, nofun, hone, hidle⟩
  pending hpending := h.pending (hpending.imp_left nofun)
  call := nofun
  watching := h.watching
  two := h.two
  served := h.served

theorem After.start (h : After s) (waitForConnection : Bool) :
    After (s.start waitForConnection) := by
  unfold Watchdog.start
  dsimp only
  have hset : After { s with waitForConnection := waitForConnection } :=
    ⟨h.stopped, h.thread, h.closed, h.pending, h.call, h.watching, h.two, h.served⟩
  split
  · exact hset.joins
  · refine ⟨h.stopped, h.thread, fun hclosed => ?_, fun hpending => ?_, nofun, h.watching, h.two,
      h.served⟩
    · obtain ⟨hthread, -, hone, hidle⟩ := h.closed hclosed
      exact ⟨hthread, nofun, hone, hidle⟩
    · exact h.pending (hpending.imp_left nofun)

theorem After.startListens (h : After s) {bound : Bool}
    (hstep : s.startListens bound = some t) : After t := by
  rcases startListens_cases hstep with rfl | ⟨hclosed, ⟨-, rfl⟩ | ⟨-, rfl⟩⟩
  · refine ⟨h.stopped, h.thread, nofun, fun hpending => ?_, nofun, fun _ => .inr rfl, h.two,
      h.served⟩
    obtain ⟨hone, hidle, -⟩ := h.pending (hpending.imp_left nofun)
    exact ⟨hone, hidle, rfl⟩
  · obtain ⟨hthread, -, hone, hidle⟩ := h.closed hclosed
    exact ⟨h.stopped, h.thread, nofun, fun _ => ⟨hone, hidle, rfl⟩, fun _ => hthread,
      fun _ => .inr rfl, h.two, h.served⟩
  · obtain ⟨hthread, -, hone, hidle⟩ := h.closed hclosed
    exact ⟨h.stopped, h.thread, nofun, fun _ => ⟨hone, hidle, rfl⟩, nofun, fun _ => .inr rfl, h.two,
      h.served⟩

/-- The client that was waited for is the last one. -/
theorem After.startAccepts (h : After s) (hcall : s.call = .accepting) {ec : ErrorCode}
    (hstep : s.accept ec = some t) : After t.joins := by
  have hthread := h.call hcall
  obtain ⟨hone, hidle, hlistening⟩ := h.pending (.inl hcall)
  have hopen : s.network.acceptorOpen = true := by
    by_contra hclosed
    exact (h.closed (by simpa using hclosed)).2.1 hcall
  obtain rfl := accept_cases hstep
  have hclosed {P : Prop} (hclosed : s.network.acceptorOpen = false) : P :=
    absurd (hopen.symm.trans hclosed) (by decide)
  have hpending {P : Prop} (hpending : StartCall.joining = .accepting ∨ s.thread = .accepting) :
      P := by
    rcases hpending with hc | ht
    · cases hc
    · exact absurd (hthread.symm.trans ht) (by decide)
  have hwatching {P : Prop} (hwatching : s.thread = .watching) : P :=
    absurd (hthread.symm.trans hwatching) (by decide)
  unfold Network.onNewConnection
  split
  · exact ⟨h.stopped, h.thread, hclosed, hpending, nofun, hwatching, Nat.succ_le_succ hone,
      fun _ => rfl⟩
  · exact ⟨h.stopped, h.thread, hclosed, hpending, nofun, hwatching, h.two,
      fun htwo => absurd (htwo.symm.trans_le hone) (by decide)⟩

theorem After.startJoins (h : After s) (hthread : s.thread = .none ∨ s.thread = .watching) :
    After { s with stopWatchdog := false, call := .returned, thread := .watching } := by
  have hwatching : s.thread = .watching := by
    rcases hthread with hnone | hwatching
    · exact absurd (hnone ▸ h.thread) (by decide)
    · exact hwatching
  refine ⟨h.stopped, .inl rfl, fun hclosed => ?_, nofun, nofun, fun _ => h.watching hwatching,
    h.two, h.served⟩
  exact absurd (hwatching.symm.trans (h.closed hclosed).1) (by decide)

/-- The watchdog has nothing to do any more. -/
theorem After.watch (h : After s) (hthread : s.thread = .watching) : s.watch = s := by
  have hopen : s.network.acceptorOpen = true := by
    by_contra hclosed
    exact absurd (hthread.symm.trans (h.closed (by simpa using hclosed)).1) (by decide)
  rw [Watchdog.watch, if_pos]
  rw [Network.isListening, hopen, Bool.true_and, Bool.or_eq_true]
  exact h.watching hthread

theorem After.watchListens (h : After s) {bound : Bool}
    (hstep : s.watchListens bound = some t) : After t := by
  obtain ⟨hclosed, ⟨-, rfl⟩ | ⟨-, rfl⟩⟩ := watchListens_cases hstep
  · obtain ⟨-, hcall, hone, hidle⟩ := h.closed hclosed
    exact ⟨h.stopped, .inr (.inr rfl), nofun, fun _ => ⟨hone, hidle, rfl⟩,
      fun hc => absurd hc hcall, nofun, h.two, h.served⟩
  · obtain ⟨-, hcall, hone, hidle⟩ := h.closed hclosed
    exact ⟨h.stopped, .inl rfl, nofun, fun _ => ⟨hone, hidle, rfl⟩,
      fun hc => absurd hc hcall, fun _ => .inr rfl, h.two, h.served⟩

theorem After.watchAccepts (h : After s) (hthread : s.thread = .accepting) {ec : ErrorCode}
    (hstep : s.accept ec = some t) : After { t with thread := .watching } := by
  obtain ⟨hone, hidle, hlistening⟩ := h.pending (.inr hthread)
  have hcall : s.call ≠ .accepting := fun hc =>
    absurd (hthread.symm.trans (h.call hc)) (by decide)
  have hclosed {P : Prop} (hclosed : s.network.acceptorOpen = false) : P :=
    absurd (hthread.symm.trans (h.closed hclosed).1) (by decide)
  have hpending {P : Prop}
      (hpending : s.call = .accepting ∨ WatchdogThread.watching = .accepting) : P := by
    rcases hpending with hc | ht
    · exact absurd hc hcall
    · cases ht
  obtain rfl := accept_cases hstep
  unfold Network.onNewConnection
  split
  · exact ⟨h.stopped, .inl rfl, hclosed, hpending, fun hc => absurd hc hcall, fun _ => .inl rfl,
      Nat.succ_le_succ hone, fun _ => rfl⟩
  · exact ⟨h.stopped, .inl rfl, hclosed, hpending, fun hc => absurd hc hcall,
      fun _ => .inr hlistening, h.two, fun htwo => absurd (htwo.symm.trans_le hone) (by decide)⟩

theorem After.not_handler (h : After s) (a : Network.Action) : s.handler a = none := by
  rw [Watchdog.handler, if_neg]
  rw [h.stopped]
  simp

theorem After.step (h : After s) {a : Action} (hstep : s.step a = some t) : After t := by
  have htakes := takes_of_step hstep
  cases a with
  | start waitForConnection =>
    obtain rfl := htakes
    exact h.start waitForConnection
  | startListens bound => exact h.startListens htakes
  | startAccepts ec =>
    obtain ⟨hcall, u, hu, rfl⟩ := htakes
    exact h.startAccepts hcall hu
  | startJoins =>
    obtain ⟨-, hthread, rfl⟩ := htakes
    exact h.startJoins hthread
  | watch =>
    obtain ⟨hthread, rfl⟩ := htakes
    rwa [h.watch hthread]
  | watchStops => exact absurd (htakes.1 ▸ h.thread) (by decide)
  | watchListens bound => exact h.watchListens htakes.2
  | watchAccepts ec =>
    obtain ⟨hthread, u, hu, rfl⟩ := htakes
    exact h.watchAccepts hthread hu
  | handler a => cases (h.not_handler a).symm.trans htakes
  | loop =>
    obtain ⟨thread, rfl⟩ := htakes
    exact ⟨h.stopped, h.thread, h.closed, h.pending, h.call, h.watching, h.two, h.served⟩

end Steps

/-! ### Whole runs -/

section Runs

variable {s t : Watchdog} {l : List Action}

theorem before_or_after_of_run (hrun : Run.run step {} l = some s) : Before s ∨ After s := by
  refine Run.run_invariant (I := fun s => Before s ∨ After s) (P := fun _ _ => True)
    (fun u a v h _ hstep => ?_) (.inl before_init) (Run.along_of_forall (fun _ _ => trivial) _ l)
    hrun
  rcases h with hbefore | hafter
  · exact hbefore.step hstep
  · exact .inr (hafter.step hstep)

theorem after_of_run (hrun : Run.run step {} l = some s) (hstop : s.network.stop = true) :
    After s := by
  rcases before_or_after_of_run hrun with hbefore | hafter
  · exact absurd (hbefore.running.symm.trans hstop) (by decide)
  · exact hafter

/-- A client that is connected stays so, and stays the last one. -/
theorem After.connected_step (h : After s) (hconnected : s.network.isConnected = true) {a : Action}
    (hstep : s.step a = some t) :
    t.network.isConnected = true ∧ t.clients = s.clients := by
  have hopen : s.network.acceptorOpen = true := by
    by_contra hclosed
    obtain ⟨-, -, -, hidle⟩ := h.closed (by simpa using hclosed)
    exact absurd (hconnected.symm.trans hidle) (by decide)
  have hcall : s.call ≠ .accepting := fun hc =>
    absurd (hconnected.symm.trans (h.pending (.inl hc)).2.1) (by decide)
  have hthread : s.thread ≠ .accepting := fun ht =>
    absurd (hconnected.symm.trans (h.pending (.inr ht)).2.1) (by decide)
  have htakes := takes_of_step hstep
  cases a with
  | start waitForConnection =>
    obtain rfl := htakes
    simp only [Watchdog.start, hconnected, if_true]
    exact ⟨hconnected, rfl⟩
  | startListens bound =>
    rcases startListens_cases htakes with rfl | ⟨hclosed, -⟩
    · exact ⟨hconnected, rfl⟩
    · exact absurd (hopen.symm.trans hclosed) (by decide)
  | startAccepts ec => exact absurd htakes.1 hcall
  | startJoins =>
    obtain ⟨-, -, rfl⟩ := htakes
    exact ⟨hconnected, rfl⟩
  | watch =>
    obtain ⟨hwatching, rfl⟩ := htakes
    rw [h.watch hwatching]
    exact ⟨hconnected, rfl⟩
  | watchStops => exact absurd (htakes.1 ▸ h.thread) (by decide)
  | watchListens bound =>
    obtain ⟨hclosed, -⟩ := watchListens_cases htakes.2
    exact absurd (hopen.symm.trans hclosed) (by decide)
  | watchAccepts ec => exact absurd htakes.1 hthread
  | handler a => cases (h.not_handler a).symm.trans htakes
  | loop =>
    obtain ⟨thread, rfl⟩ := htakes
    exact ⟨hconnected, rfl⟩

/-- Once the network has been stopped no handler runs, and a client that is connected is the last
one. -/
theorem After.run (h : After s) (hrun : Run.run Watchdog.step s l = some t) :
    (∀ a, .handler a ∉ l) ∧ (s.network.isConnected = true →
      t.network.isConnected = true ∧ t.clients = s.clients) := by
  induction l generalizing s with
  | nil =>
    cases hrun
    exact ⟨fun a => List.not_mem_nil, fun hconnected => ⟨hconnected, rfl⟩⟩
  | cons a l ih =>
    obtain ⟨u, hu, hrun⟩ := Option.bind_eq_some_iff.1 hrun
    obtain ⟨hquiet, hstays⟩ := ih (h.step hu) hrun
    constructor
    · intro b hmem
      rcases List.mem_cons.1 hmem with rfl | hmem
      · cases (h.not_handler b).symm.trans hu
      · exact hquiet b hmem
    · intro hconnected
      obtain ⟨hu, hclients⟩ := h.connected_step hconnected hu
      obtain ⟨ht, hclients'⟩ := hstays hu
      exact ⟨ht, hclients'.trans hclients⟩

/-- No thread waits in `accept`, and nobody connects once the network has been stopped. -/
structure NeverWaits (s : Watchdog) : Prop where
  asks : s.waitForConnection = false
  call : s.call ≠ .accepting
  thread : s.thread ≠ .accepting
  idle : s.network.stop = true → s.clients ≤ 1 ∧ s.network.isConnected = false

theorem NeverWaits.step (h : NeverWaits s) (hphase : Before s ∨ After s) {a : Action}
    (ha : a ≠ .start true) (hstep : s.step a = some t) : NeverWaits t := by
  have htakes := takes_of_step hstep
  cases a with
  | start waitForConnection =>
    obtain rfl := htakes
    have hasks : waitForConnection = false := by
      cases waitForConnection with
      | false => rfl
      | true => exact absurd rfl ha
    unfold Watchdog.start
    dsimp only
    split
    · exact ⟨hasks, nofun, h.thread, h.idle⟩
    · exact ⟨hasks, nofun, h.thread, h.idle⟩
  | startListens bound =>
    rcases startListens_cases htakes with rfl | ⟨-, ⟨hwait, -⟩ | ⟨-, rfl⟩⟩
    · exact ⟨h.asks, nofun, h.thread, h.idle⟩
    · exact absurd (h.asks.symm.trans hwait) (by decide)
    · exact ⟨h.asks, nofun, h.thread, h.idle⟩
  | startAccepts ec => exact absurd htakes.1 h.call
  | startJoins =>
    obtain ⟨-, -, rfl⟩ := htakes
    exact ⟨h.asks, nofun, nofun, h.idle⟩
  | watch =>
    obtain ⟨-, rfl⟩ := htakes
    unfold Watchdog.watch
    split
    · exact h
    · exact ⟨h.asks, h.call, nofun, h.idle⟩
  | watchStops =>
    obtain ⟨hthread, rfl⟩ := htakes
    rcases hphase with hbefore | hafter
    · exact ⟨h.asks, h.call, nofun, fun _ => ⟨hbefore.one, rfl⟩⟩
    · exact absurd (hthread ▸ hafter.thread) (by decide)
  | watchListens bound =>
    obtain ⟨-, ⟨hwait, -⟩ | ⟨-, rfl⟩⟩ := watchListens_cases htakes.2
    · exact absurd (h.asks.symm.trans hwait) (by decide)
    · exact ⟨h.asks, h.call, nofun, h.idle⟩
  | watchAccepts ec => exact absurd htakes.1 h.thread
  | handler a =>
    obtain ⟨hstop, ⟨ec, -, rfl⟩ | ⟨status, reading, rfl⟩⟩ := handler_cases htakes
    · refine ⟨h.asks, h.call, h.thread, fun hstopped => ?_⟩
      have hkept : ({ s.network with accepting := false }.onNewConnection ec).stop =
          s.network.stop := by
        unfold Network.onNewConnection
        split <;> rfl
      exact absurd (hstop.symm.trans (hkept.symm.trans hstopped)) (by decide)
    · exact ⟨h.asks, h.call, h.thread, fun hstopped =>
        absurd (hstop.symm.trans hstopped) (by decide)⟩
  | loop =>
    obtain ⟨thread, rfl⟩ := htakes
    exact ⟨h.asks, h.call, h.thread, h.idle⟩

theorem neverWaits_of_run (hrun : Run.run Watchdog.step {} l = some s)
    (hl : ∀ a ∈ l, a ≠ .start true) : NeverWaits s := by
  refine (Run.run_invariant (I := fun s => NeverWaits s ∧ (Before s ∨ After s))
    (P := fun _ a => a ≠ Action.start true) (fun u a v h ha hstep => ?_)
    ⟨⟨rfl, by decide, by decide, by decide⟩, .inl before_init⟩
    (Run.along_of_mem (fun a ha _ => hl a ha) _) hrun).1
  refine ⟨h.1.step h.2 ha hstep, ?_⟩
  rcases h.2 with hbefore | hafter
  · exact hbefore.step hstep
  · exact .inr (hafter.step hstep)

/-- **A server has two clients in its life, or one if it never waits for one.**  The second one it
neither hears nor sees leave: once the watchdog has stopped the network, in order to listen again,
no handler runs any more. -/
theorem served_of_run (hrun : Run.run step {} l = some s) :
    (s.clients ≤ 2 ∧ (s.clients = 2 → s.network.stop = true ∧ s.network.isConnected = true)) ∧
      (s.network.stop = true → ∀ m t, Run.run step s m = some t →
        (∀ a, .handler a ∉ m) ∧ (s.network.isConnected = true →
          t.network.isConnected = true ∧ t.clients = s.clients)) ∧
      ((∀ a ∈ l, a ≠ .start true) →
        s.clients ≤ 1 ∧ (s.network.stop = true → s.network.isConnected = false)) := by
  refine ⟨?_, fun hstop m t => (after_of_run hrun hstop).run, fun hl => ?_⟩
  · rcases before_or_after_of_run hrun with hbefore | hafter
    · exact ⟨hbefore.one.trans (by decide), fun htwo =>
        absurd (htwo.symm.trans_le hbefore.one) (by decide)⟩
    · exact ⟨hafter.two, fun htwo => ⟨hafter.stopped, hafter.served htwo⟩⟩
  · have h := neverWaits_of_run hrun hl
    rcases before_or_after_of_run hrun with hbefore | hafter
    · exact ⟨hbefore.one, fun hstop => (h.idle hstop).2⟩
    · exact ⟨(h.idle hafter.stopped).1, fun hstop => (h.idle hstop).2⟩

end Runs

/-- A client connects and leaves, and another one connects. -/
def secondClient : List Action :=
  [.start true, .startListens true, .startAccepts .ok, .startJoins, .watch,
    .handler (.headerRead .eof 0 0), .watch, .watchStops, .watchListens true, .watchAccepts .ok]

theorem served_of_run_secondClient :
    ∃ s, Run.run step {} secondClient = some s ∧ s.clients = 2 ∧
      ∀ m t, Run.run step s m = some t → (∀ a, .handler a ∉ m) ∧ t.clients = 2 := by
  let s := (Run.run step {} secondClient).getD {}
  have hrun : Run.run step {} secondClient = some s := by decide
  have hclients : s.clients = 2 := by decide
  obtain ⟨⟨-, htwo⟩, hafter, -⟩ := served_of_run hrun
  obtain ⟨hstop, hconnected⟩ := htwo hclients
  refine ⟨s, hrun, hclients, fun m t ht => ?_⟩
  obtain ⟨hquiet, hstays⟩ := hafter hstop m t ht
  exact ⟨hquiet, (hstays hconnected).2.trans hclients⟩

end Watchdog

end Owlcat
