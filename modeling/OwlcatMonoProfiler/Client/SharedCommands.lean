import OwlcatMonoProfiler.Client.Commands
import OwlcatMonoProfiler.Library.RawVector

/-!
# Requests and responses in two threads

`m_commands` has no lock: `add_command` runs in the thread that calls `find_objects_references`,
`pause_app` or `resume_app`, and `get_command` in the network thread.  Here each of their accesses
to the vector is a step.

* `Threads`, `Access`, `Threads.step`: the two threads and the command loop of the server;
* `Threads.Alone`: no access of one thread comes between the first and the last access of an
  operation of the other;
* `Phase`, `Refines.step`: then each operation is like the one step of `Commands.step`, when it is
  at its end;
* `matched_of_alone`: so requests and responses are matched in such runs;
* `raceRun`: an `erase` and a `push_back` at the same time lose a command.
-/

namespace Owlcat

namespace Commands

open Protocol

/-- A response as the branches of `process_messages` read it; `report` is what the server sent. -/
structure Response where
  requestId : UInt64
  type : UInt8
  received : Received
  report : Option Report

/-- The response a message is; `none` for events and for broken messages. -/
def response (u : Uninit) (msg : Packet) (report : Option Report) : Option Response :=
  match readReport u msg with
  | some ⟨true, .references requestId objects, _⟩ =>
    some ⟨requestId, cmdReferences, .references requestId objects, report⟩
  | some ⟨true, .paused requestId ok, _⟩ => some ⟨requestId, cmdPause, .paused requestId ok, report⟩
  | some ⟨true, .resumed requestId ok, _⟩ =>
    some ⟨requestId, cmdResume, .resumed requestId ok, report⟩
  | _ => none

/-- How far `get_command` has come.  `generation` is the storage its pointers are into. -/
inductive Receiver
  | idle
  /-- `find_if` is at slot `i`, and `n` is the end it was called with. -/
  | searching (r : Response) (generation i n : ℕ)
  /-- `find_if` has returned slot `i`. -/
  | found (r : Response) (generation i : ℕ)
  /-- It was not the end. -/
  | copying (r : Response) (generation i : ℕ)
  /-- The command was copied, and `erase` is called. -/
  | erasing (r : Response) (cmd : Command) (generation i : ℕ)
  /-- `erase` has moved the commands up to slot `i`, and `n` is the end it has loaded. -/
  | moving (r : Response) (cmd : Command) (generation i n : ℕ)
  /-- They are all moved. -/
  | shrinking (r : Response) (cmd : Command)
  /-- The end is to be set to `n`. -/
  | storing (r : Response) (cmd : Command) (generation n : ℕ)

instance Receiver.decidableIdle : ∀ receiver : Receiver, Decidable (receiver = .idle)
  | .idle => .isTrue rfl
  | .searching .. | .found .. | .copying .. | .erasing .. | .moving .. | .shrinking ..
  | .storing .. => .isFalse nofun

/-- `erase` has begun to move commands. -/
def Receiver.Erasing : Receiver → Prop
  | .moving .. | .shrinking .. | .storing .. => True
  | _ => False

/-- The client and the server as before, but for `m_commands`, which is `vector`; what the two
threads are at, and whether one of them did something undefined. -/
structure Threads extends State where
  vector : RawVector Command := {}
  caller : Option (PushBack Command) := none
  receiver : Receiver := .idle
  undefined : Bool := false

/-- What can happen: the beginning of a call, the next access of its `push_back`, an iteration of
the command loop of the server, the arrival of one of its responses or of one with an id that was
not issued, and the next access of `get_command`. -/
inductive Access
  | findObjectsReferences (addresses : List UInt64)
  | pauseApp
  | resumeApp
  | push
  | serve (refs : List ObjectReferences)
  | arrive (i : ℕ)
  | stray (r : Report)
  | get

namespace Threads

/-- A call takes its id, and `push_back` loads the end of the vector. -/
def call (t : Threads) (cmd : Command) : Option Threads :=
  match t.caller with
  | some _ => none
  | none =>
    some { t with
      client := { t.client with nextRequestId := t.client.nextRequestId + 1 }
      caller := some (.loaded cmd t.vector.finish) }

/-- The message is written when `push_back` has returned. -/
def issue (t : Threads) (cmd : Command) : Threads :=
  { t with
    client := { t.client with
      written := if t.client.socketOpen then t.client.written ++ [cmd.packet]
        else t.client.written }
    issued := t.issued ++ [cmd]
    caller := none }

/-- The next access of `push_back`. -/
def push (spare : ℕ → ℕ) (t : Threads) : Option Threads :=
  t.caller.map fun pushBack =>
    match t.vector.push spare pushBack with
    | none => { t with undefined := true }
    | some (some pushBack, vector) => { t with vector := vector, caller := some pushBack }
    | some (none, vector) => { t with vector := vector }.issue pushBack.object

/-- The network thread begins with a message: `find_if` is called with `begin()` and `end()`. -/
def receive (u : Uninit) (t : Threads) (msg : Packet) (report : Option Report) : Option Threads :=
  match t.receiver with
  | .idle =>
    (response u msg report).map fun r =>
      { t with receiver := .searching r t.vector.generation 0 t.vector.finish }
  | _ => none

/-- `get_command` returns, and the rest of the message is processed. -/
def respond (t : Threads) (r : Response) (cmd : Option Command) : Threads :=
  { t with
    client := match cmd with
      | none => t.client
      | some cmd => (t.client.callback cmd r.received).flush
    arrived := t.arrived ++ r.report.toList
    receiver := .idle }

/-- The next access of `get_command`. -/
def get (t : Threads) : Option Threads :=
  match t.receiver with
  | .idle => none
  | .searching r generation i n =>
    if i = n then some { t with receiver := .found r generation i }
    else
      match t.vector.load generation i with
      | none => some { t with undefined := true }
      | some cmd =>
        if cmd.requestId = r.requestId then some { t with receiver := .found r generation i }
        else some { t with receiver := .searching r generation (i + 1) n }
  | .found r generation i =>
    if generation = t.vector.generation ∧ i = t.vector.finish then some (t.respond r none)
    else some { t with receiver := .copying r generation i }
  | .copying r generation i =>
    match t.vector.load generation i with
    | none => some { t with undefined := true }
    | some cmd =>
      some { t with
        client := { t.client with
          assertFailed := t.client.assertFailed || cmd.type != r.type }
        receiver := .erasing r cmd generation i }
  | .erasing r cmd generation i =>
    if generation = t.vector.generation then
      some { t with receiver := .moving r cmd generation i t.vector.finish }
    else some { t with undefined := true }
  | .moving r cmd generation i n =>
    if n ≤ i + 1 then some { t with receiver := .shrinking r cmd }
    else
      match t.vector.moveDown generation i with
      | none => some { t with undefined := true }
      | some vector =>
        some { t with vector := vector, receiver := .moving r cmd generation (i + 1) n }
  | .shrinking r cmd =>
    some { t with receiver := .storing r cmd t.vector.generation (t.vector.finish - 1) }
  | .storing r cmd generation n =>
    match t.vector.truncate generation n with
    | none => some { t with undefined := true }
    | some vector => some ({ t with vector := vector }.respond r (some cmd))

/-- The state after an access; `spare` says how much larger than needed a new storage is. -/
def step (u : Uninit) (spare : ℕ → ℕ) (t : Threads) (a : Access) : Option Threads :=
  if t.undefined then none
  else
    match a with
    | .findObjectsReferences addresses => t.call (.references t.client.nextRequestId addresses)
    | .pauseApp => t.call (.pause t.client.nextRequestId)
    | .resumeApp => t.call (.resume t.client.nextRequestId)
    | .push => t.push spare
    | .serve refs => (Commands.serve u t.toState refs).map fun s => { t with toState := s }
    | .arrive i => (t.reports[i]?).bind fun r => t.receive u (reportPacket r) (some r)
    | .stray r =>
      match r.requestId with
      | none => none
      | some requestId =>
        if Framed (reportPacket r) ∧ requestId ∉ t.issued.map Command.requestId then
          t.receive u (reportPacket r) none
        else none
    | .get => t.get

/-- The other thread is in no operation on the vector, and the counter of ids does not overflow. -/
def Alone (t : Threads) : Access → Prop
  | .findObjectsReferences _ | .pauseApp | .resumeApp =>
    t.receiver = .idle ∧ t.issued.length < 2 ^ 64
  | .push => t.receiver = .idle
  | .serve _ => True
  | .arrive _ | .stray _ | .get => t.caller = none

instance decidableAlone (t : Threads) : ∀ a, Decidable (t.Alone a)
  | .findObjectsReferences _ | .pauseApp | .resumeApp =>
    inferInstanceAs (Decidable (t.receiver = .idle ∧ t.issued.length < 2 ^ 64))
  | .push => inferInstanceAs (Decidable (t.receiver = .idle))
  | .serve _ => .isTrue trivial
  | .arrive _ | .stray _ | .get => inferInstanceAs (Decidable (t.caller = none))

/-- **Requests and responses are matched**, when the steps are accesses to the vector. -/
structure Matched (t : Threads) : Prop where
  /-- Each callback is called at most once. -/
  once : (t.client.callbacks.map Prod.fst).Nodup
  /-- Only a response to the command calls it, with its contents. -/
  own : ∀ call ∈ t.client.callbacks, call.1 ∈ t.issued ∧
    ∃ r ∈ t.arrived, r.Answers call.1 ∧ call.2 = r.received
  /-- The commands in the vector are the unanswered ones, but while one is taken out. -/
  pending : ¬ t.receiver.Erasing →
    t.vector.contents = t.issued.filter fun cmd => Unanswered t.arrived cmd
  /-- The callbacks of the others were called. -/
  called : ∀ cmd ∈ t.issued, ¬ Unanswered t.arrived cmd → cmd ∈ t.client.callbacks.map Prod.fst
  /-- The downcast in `get_command` is to the type of the command. -/
  sameType : t.client.assertFailed = false
  /-- Every access is to an object of the vector. -/
  defined : t.undefined = false

end Threads

/-! ### Operations that are alone -/

/-- The response has the type, the contents and the id of what the server sent, or its id was not
issued. -/
def Response.Valid (s : State) (r : Response) : Prop :=
  ∃ report : Report, report.requestId = some r.requestId ∧ report.commandType = r.type ∧
    report.received = r.received ∧
    (r.report = some report ∧ report ∈ s.reports ∨
      r.report = none ∧ Framed (reportPacket report) ∧
        r.requestId ∉ s.issued.map Command.requestId)

/-- What the two threads are at, and the vector, when the commands are those of `s`. -/
inductive Phase (s : State) (vector : RawVector Command) :
    UInt64 → Option (PushBack Command) → Receiver → Prop
  | idle (h : vector.Holds s.client.commands) : Phase s vector s.client.nextRequestId none .idle
  | loaded {cmd : Command} (h : vector.Holds s.client.commands)
      (hid : cmd.requestId = s.client.nextRequestId) (hlen : s.issued.length < 2 ^ 64) :
      Phase s vector (s.client.nextRequestId + 1)
        (some (.loaded cmd s.client.commands.length)) .idle
  | constructed {cmd : Command} (h : vector.Staged s.client.commands cmd)
      (hid : cmd.requestId = s.client.nextRequestId) (hlen : s.issued.length < 2 ^ 64) :
      Phase s vector (s.client.nextRequestId + 1)
        (some (.constructed cmd s.client.commands.length)) .idle
  | replaced {cmd : Command} {rest : List (Option Command)} (h : vector.Holds s.client.commands)
      (hid : cmd.requestId = s.client.nextRequestId) (hlen : s.issued.length < 2 ^ 64) :
      Phase s vector (s.client.nextRequestId + 1)
        (some (.replaced cmd ((s.client.commands ++ [cmd]).map some ++ rest)
          s.client.commands.length)) .idle
  | searching {r : Response} {before behind : List Command}
      (h : vector.Holds s.client.commands) (hr : r.Valid s)
      (hsplit : s.client.commands = before ++ behind)
      (hbefore : ∀ cmd ∈ before, cmd.requestId ≠ r.requestId) :
      Phase s vector s.client.nextRequestId none
        (.searching r vector.generation before.length s.client.commands.length)
  | found {r : Response} {before behind : List Command}
      (h : vector.Holds s.client.commands) (hr : r.Valid s)
      (hsplit : s.client.commands = before ++ behind)
      (hbefore : ∀ cmd ∈ before, cmd.requestId ≠ r.requestId)
      (hbehind : ∀ cmd ∈ behind.head?, cmd.requestId = r.requestId) :
      Phase s vector s.client.nextRequestId none (.found r vector.generation before.length)
  | copying {r : Response} {before behind : List Command} {cmd : Command}
      (h : vector.Holds s.client.commands) (hr : r.Valid s)
      (hsplit : s.client.commands = before ++ cmd :: behind)
      (hbefore : ∀ cmd ∈ before, cmd.requestId ≠ r.requestId)
      (hid : cmd.requestId = r.requestId) :
      Phase s vector s.client.nextRequestId none (.copying r vector.generation before.length)
  | erasing {r : Response} {before behind : List Command} {cmd : Command}
      (h : vector.Holds s.client.commands) (hr : r.Valid s)
      (hsplit : s.client.commands = before ++ cmd :: behind)
      (hbefore : ∀ cmd ∈ before, cmd.requestId ≠ r.requestId)
      (hid : cmd.requestId = r.requestId) :
      Phase s vector s.client.nextRequestId none (.erasing r cmd vector.generation before.length)
  | moving {r : Response} {before behind : List Command} {cmd : Command}
      (h : vector.Gap before behind) (hr : r.Valid s)
      (hfind : s.client.commands.find? (fun cmd => cmd.requestId = r.requestId) = some cmd)
      (herase : s.client.commands.eraseP (fun cmd => cmd.requestId = r.requestId) =
        before ++ behind) :
      Phase s vector s.client.nextRequestId none
        (.moving r cmd vector.generation before.length (before.length + 1 + behind.length))
  | shrinking {r : Response} {rest : List Command} {cmd : Command}
      (h : vector.Gap rest []) (hr : r.Valid s)
      (hfind : s.client.commands.find? (fun cmd => cmd.requestId = r.requestId) = some cmd)
      (herase : s.client.commands.eraseP (fun cmd => cmd.requestId = r.requestId) = rest) :
      Phase s vector s.client.nextRequestId none (.shrinking r cmd)
  | storing {r : Response} {rest : List Command} {cmd : Command}
      (h : vector.Gap rest []) (hr : r.Valid s)
      (hfind : s.client.commands.find? (fun cmd => cmd.requestId = r.requestId) = some cmd)
      (herase : s.client.commands.eraseP (fun cmd => cmd.requestId = r.requestId) = rest) :
      Phase s vector s.client.nextRequestId none (.storing r cmd vector.generation rest.length)

/-- What the threads share with the state in which every operation is one step. -/
def view (s : State) (nextRequestId : UInt64) : State :=
  { s with client := { s.client with commands := [], nextRequestId := nextRequestId } }

/-- **The threads refine the state in which every operation is one step.** -/
structure Refines (t : Threads) (s : State) : Prop where
  inv : Inv s
  length : s.issued.length ≤ 2 ^ 64
  view : t.toState = view s t.client.nextRequestId
  phase : Phase s t.vector t.client.nextRequestId t.caller t.receiver
  defined : t.undefined = false

theorem Refines.initial : Refines {} {} :=
  ⟨Inv.initial, by decide, rfl, .idle RawVector.holds_empty, rfl⟩

/-- The commands are in the vector, unless `erase` has begun. -/
theorem Phase.holds {s : State} {vector : RawVector Command} {next : UInt64}
    {caller : Option (PushBack Command)} {receiver : Receiver}
    (h : Phase s vector next caller receiver) (hnot : ¬ receiver.Erasing) :
    vector.Holds s.client.commands := by
  cases h with
  | constructed h => exact h.holds
  | moving | shrinking | storing => exact absurd trivial hnot
  | idle h | loaded h | replaced h | searching h | found h | copying h | erasing h => exact h

theorem Refines.matched {t : Threads} {s : State} (h : Refines t s) : t.Matched := by
  have hissued : t.issued = s.issued := by rw [h.view]; rfl
  have harrived : t.arrived = s.arrived := by rw [h.view]; rfl
  have hcallbacks : t.client.callbacks = s.client.callbacks := by rw [h.view]; rfl
  have hassert : t.client.assertFailed = s.client.assertFailed := by rw [h.view]; rfl
  refine ⟨?_, ?_, fun hnot => ?_, ?_, hassert.trans h.inv.sameType, h.defined⟩
  · rw [hcallbacks]
    exact h.inv.once
  · rw [hcallbacks, hissued, harrived]
    exact h.inv.own
  · rw [hissued, harrived, ← h.inv.pending]
    exact (h.phase.holds hnot).contents_eq
  · rw [hcallbacks, hissued, harrived]
    exact h.inv.called

/-! ### The accesses of a call -/

/-- A call that is over is one step. -/
theorem Refines.issue {t : Threads} {s : State} {cmd : Command} {vector : RawVector Command}
    (h : Refines t s) (hlen : s.issued.length < 2 ^ 64)
    (hid : cmd.requestId = s.client.nextRequestId)
    (hnext : t.client.nextRequestId = s.client.nextRequestId + 1) (hreceiver : t.receiver = .idle)
    (hvector : vector.Holds (s.client.commands ++ [cmd])) :
    Refines ({ t with vector := vector }.issue cmd)
      { s with client := s.client.addCommand cmd, issued := s.issued ++ [cmd] } := by
  refine ⟨h.inv.issue hlen hid, by rw [List.length_append]; exact hlen, ?_, ?_, h.defined⟩
  · unfold Threads.issue
    dsimp only
    rw [h.view, Commands.view, hnext]
    rfl
  · simp only [Threads.issue, hreceiver, hnext]
    exact .idle hvector

/-- What an access of `push_back` does when the other thread is in no operation. -/
theorem Phase.push {s : State} {vector : RawVector Command} {next : UInt64}
    {pushBack : PushBack Command} {receiver : Receiver}
    (h : Phase s vector next (some pushBack) receiver) (spare : ℕ → ℕ) :
    (∃ pushBack' vector', vector.push spare pushBack = some (some pushBack', vector') ∧
      Phase s vector' next (some pushBack') receiver) ∨
    ∃ vector', vector.push spare pushBack = some (none, vector') ∧
      vector'.Holds (s.client.commands ++ [pushBack.object]) ∧
      pushBack.object.requestId = s.client.nextRequestId ∧
      next = s.client.nextRequestId + 1 ∧ s.issued.length < 2 ^ 64 ∧ receiver = .idle := by
  cases h with
  | loaded h hid hlen =>
    rcases h.push_loaded spare _ with ⟨vector', hpush, hstaged⟩ | ⟨rest, hpush⟩
    · exact .inl ⟨_, vector', hpush, .constructed hstaged hid hlen⟩
    · exact .inl ⟨_, vector, hpush, .replaced h hid hlen⟩
  | constructed h hid hlen => exact .inr ⟨_, rfl, h.store, hid, rfl, hlen, rfl⟩
  | replaced h hid hlen =>
    exact .inr ⟨_, rfl, ⟨by rw [List.length_append]; rfl, _, rfl⟩, hid, rfl, hlen, rfl⟩

theorem Refines.call {t t' : Threads} {s : State} {cmd : Command} (h : Refines t s)
    (hreceiver : t.receiver = .idle) (hlen : t.issued.length < 2 ^ 64)
    (hid : cmd.requestId = t.client.nextRequestId) (hcall : t.call cmd = some t') :
    Refines t' s := by
  have hissued : t.issued = s.issued := by rw [h.view]; rfl
  unfold Threads.call at hcall
  split at hcall
  · cases hcall
  · next hcaller =>
    cases hcall
    have hphase := h.phase
    rw [hcaller, hreceiver] at hphase
    rw [hissued] at hlen
    generalize hnext : t.client.nextRequestId = next at hphase hid
    cases hphase with
    | idle hvector =>
      refine ⟨h.inv, h.length, ?_, ?_, h.defined⟩
      · dsimp only
        rw [h.view]
        rfl
      · dsimp only
        rw [hreceiver, hvector.1]
        exact .loaded hvector hid hlen

theorem Refines.push {t t' : Threads} {s : State} {spare : ℕ → ℕ} (h : Refines t s)
    (hpush : t.push spare = some t') : ∃ s', Refines t' s' := by
  obtain ⟨pushBack, hcaller, rfl⟩ := Option.map_eq_some_iff.1 hpush
  have hphase := h.phase
  rw [hcaller] at hphase
  rcases hphase.push spare with ⟨pushBack', vector', hstep, hphase'⟩ |
    ⟨vector', hstep, hvector, hid, hnext, hlen, hreceiver⟩
  · rw [hstep]
    exact ⟨s, h.inv, h.length, h.view, hphase', h.defined⟩
  · rw [hstep]
    exact ⟨_, h.issue hlen hid hnext hreceiver hvector⟩

/-! ### The accesses of `get_command` -/

theorem response_reportPacket (u : Uninit) {r : Report} {requestId : UInt64}
    (report : Option Report) (hlen : (reportPacket r).data.length < 2 ^ 64)
    (hid : r.requestId = some requestId) :
    response u (reportPacket r) report = some ⟨requestId, r.commandType, r.received, report⟩ := by
  obtain ⟨reader, hread, -⟩ := readReport_reportPacket u r hlen
  rw [response, hread]
  cases r with
  | alloc => cases hid
  | free => cases hid
  | references => cases hid; rfl
  | paused => cases hid; rfl
  | resumed => cases hid; rfl

theorem Refines.receive {u : Uninit} {t t' : Threads} {s : State} {r : Report} {requestId : UInt64}
    {report : Option Report} (h : Refines t s) (hcaller : t.caller = none)
    (hlen : (reportPacket r).data.length < 2 ^ 64) (hid : r.requestId = some requestId)
    (hvalid : (⟨requestId, r.commandType, r.received, report⟩ : Response).Valid s)
    (hreceive : t.receive u (reportPacket r) report = some t') : Refines t' s := by
  unfold Threads.receive at hreceive
  split at hreceive
  · next hreceiver =>
    rw [response_reportPacket u report hlen hid] at hreceive
    cases hreceive
    have hphase := h.phase
    rw [hcaller, hreceiver] at hphase
    refine ⟨h.inv, h.length, h.view, ?_, h.defined⟩
    dsimp only
    rw [hcaller]
    generalize t.client.nextRequestId = next at hphase
    cases hphase with
    | idle hvector =>
      rw [hvector.1]
      exact @Phase.searching s t.vector _ [] _ hvector hvalid rfl (List.forall_mem_nil _)
  · cases hreceive

theorem Inv.respond {s : State} (h : Inv s) (hlen : s.issued.length ≤ 2 ^ 64) {r : Response}
    (hr : r.Valid s) :
    Inv { s with
      client := s.client.answer r.requestId r.type r.received
      arrived := s.arrived ++ r.report.toList } := by
  obtain ⟨report, hid, htype, hreceived, ⟨hreport, hmem⟩ | ⟨hreport, hframed, hnot⟩⟩ := hr
  · have hframed := (h.reports report hmem).1
    have hanswer := s.client.processMessage_reportPacket ⟨0, 0, 0⟩
      (by unfold Framed at hframed; omega) hid
    have harrive := h.arrive (u := ⟨0, 0, 0⟩) hlen hmem
    rw [hanswer, htype, hreceived] at harrive
    rw [hreport]
    exact harrive
  · have hanswer := s.client.processMessage_reportPacket ⟨0, 0, 0⟩
      (by unfold Framed at hframed; omega) hid
    rw [processMessage_stray h hframed hid hnot, htype, hreceived] at hanswer
    rw [← hanswer, hreport, Option.toList_none, List.append_nil]
    exact h

/-- The command that is found has the type that is asserted. -/
theorem Inv.type_eq {s : State} (h : Inv s) (hlen : s.issued.length ≤ 2 ^ 64) {r : Response}
    (hr : r.Valid s) {cmd : Command}
    (hfind : s.client.commands.find? (fun cmd => cmd.requestId = r.requestId) = some cmd) :
    cmd.type = r.type := by
  obtain ⟨-, -, hassert, -⟩ := s.client.answer_spec r.requestId r.type r.received
  have hfalse := hassert.symm.trans (h.respond hlen hr).sameType
  rw [hfind] at hfalse
  simpa using (Bool.or_eq_false_iff.1 hfalse).2

theorem Inv.answer_eq {s : State} (h : Inv s) (hlen : s.issued.length ≤ 2 ^ 64) {r : Response}
    (hr : r.Valid s) {cmd : Command}
    (hfind : s.client.commands.find? (fun cmd => cmd.requestId = r.requestId) = some cmd) :
    s.client.answer r.requestId r.type r.received =
      ({ s.client with
        commands := s.client.commands.eraseP fun cmd => cmd.requestId = r.requestId }.callback cmd
          r.received).flush := by
  rw [Details.answer, Details.getCommand, hfind]
  dsimp only [Option.map_some]
  rw [h.type_eq hlen hr hfind, bne_self_eq_false, Bool.or_false]

/-- A `get_command` that is over is one step. -/
theorem Refines.respond {t : Threads} {s : State} {vector : RawVector Command} {r : Response}
    (h : Refines t s) (hr : r.Valid s) (hcaller : t.caller = none)
    (hnext : t.client.nextRequestId = s.client.nextRequestId)
    (hvector : vector.Holds (s.client.commands.eraseP fun cmd => cmd.requestId = r.requestId)) :
    Refines
      ({ t with vector := vector }.respond r
        (s.client.commands.find? fun cmd => cmd.requestId = r.requestId))
      { s with
        client := s.client.answer r.requestId r.type r.received
        arrived := s.arrived ++ r.report.toList } := by
  obtain ⟨hcommands, -, -, hnext', -⟩ := s.client.answer_spec r.requestId r.type r.received
  refine ⟨h.inv.respond h.length hr, h.length, ?_, ?_, h.defined⟩
  · cases hfind : s.client.commands.find? fun cmd => cmd.requestId = r.requestId with
    | none =>
      have hanswer : s.client.answer r.requestId r.type r.received = s.client := by
        rw [Details.answer, Details.getCommand, hfind]
        rfl
      unfold Threads.respond
      dsimp only
      rw [hanswer, h.view]
      rfl
    | some cmd =>
      unfold Threads.respond
      dsimp only
      rw [h.inv.answer_eq h.length hr hfind, h.view]
      rfl
  · have hclient : ({ t with vector := vector }.respond r (s.client.commands.find? fun cmd =>
        cmd.requestId = r.requestId)).client.nextRequestId = t.client.nextRequestId := by
      cases s.client.commands.find? fun cmd => cmd.requestId = r.requestId <;> rfl
    rw [hclient, hnext, ← hnext']
    unfold Threads.respond
    dsimp only
    rw [hcaller]
    rw [← hcommands] at hvector
    exact .idle hvector

theorem find?_split {r : Response} {commands before behind : List Command} {cmd : Command}
    (hsplit : commands = before ++ cmd :: behind)
    (hbefore : ∀ cmd ∈ before, cmd.requestId ≠ r.requestId) (hid : cmd.requestId = r.requestId) :
    commands.find? (fun cmd => cmd.requestId = r.requestId) = some cmd ∧
      commands.eraseP (fun cmd => cmd.requestId = r.requestId) = before ++ behind := by
  have hnone : before.find? (fun cmd => cmd.requestId = r.requestId) = none := by
    simpa using hbefore
  constructor
  · rw [hsplit, List.find?_append, hnone, Option.none_or]
    simp only [List.find?_cons, hid, decide_true]
  · rw [hsplit, List.eraseP_append_right _ (by simpa using hbefore)]
    simp only [List.eraseP_cons, hid, decide_true, cond_true]

theorem Refines.get {t t' : Threads} {s : State} (h : Refines t s) (hcaller : t.caller = none)
    (hget : t.get = some t') : ∃ s', Refines t' s' := by
  have hphase := h.phase
  rw [hcaller] at hphase
  have hadvance : ∀ receiver, Phase s t.vector t.client.nextRequestId none receiver →
      ∃ s', Refines { t with receiver := receiver } s' := by
    intro receiver hphase'
    rw [← hcaller] at hphase'
    exact ⟨s, h.inv, h.length, h.view, hphase', h.defined⟩
  unfold Threads.get at hget
  generalize hnext : t.client.nextRequestId = next at hphase hadvance
  generalize t.receiver = receiver at hphase hget
  cases hphase with
  | idle => cases hget
  | @searching r before behind hvector hr hsplit hbefore =>
    dsimp only at hget
    cases behind with
    | nil =>
      rw [List.append_nil] at hsplit
      rw [if_pos (by rw [hsplit])] at hget
      cases hget
      exact hadvance _ (.found hvector hr (hsplit.trans (List.append_nil _).symm) hbefore (by simp))
    | cons cmd behind =>
      have hlt : before.length < s.client.commands.length := by simp [hsplit]
      have hload : t.vector.load t.vector.generation before.length = some cmd := by
        rw [hvector.load hlt, hsplit, List.getElem?_append_right le_rfl, Nat.sub_self]
        rfl
      rw [if_neg hlt.ne, hload] at hget
      dsimp only at hget
      split_ifs at hget with hid
      · cases hget
        refine hadvance _ (.found hvector hr hsplit hbefore ?_)
        simpa using hid
      · cases hget
        have hnot : ∀ cmd' ∈ before ++ [cmd], cmd'.requestId ≠ r.requestId := by
          simpa [or_imp, forall_and] using ⟨hbefore, hid⟩
        have hlen : before.length + 1 = (before ++ [cmd]).length := by simp
        rw [hlen]
        exact hadvance _ (.searching hvector hr (by rw [hsplit, List.append_cons]) hnot)
  | @found r before behind hvector hr hsplit hbefore hbehind =>
    dsimp only at hget
    cases behind with
    | nil =>
      rw [List.append_nil] at hsplit
      rw [if_pos ⟨rfl, by rw [hvector.1, hsplit]⟩] at hget
      cases hget
      have hnone : s.client.commands.find? (fun cmd => cmd.requestId = r.requestId) = none := by
        rw [hsplit]
        simpa using hbefore
      have hrespond := @Refines.respond t s t.vector r h hr hcaller hnext
      rw [hnone, List.eraseP_of_forall_not (List.find?_eq_none.1 hnone)] at hrespond
      exact ⟨_, hrespond hvector⟩
    | cons cmd behind =>
      have hlt : before.length < s.client.commands.length := by simp [hsplit]
      rw [if_neg fun heq => hlt.ne (heq.2.trans hvector.1)] at hget
      cases hget
      exact hadvance _ (.copying hvector hr hsplit hbefore (hbehind cmd rfl))
  | @copying r before behind cmd hvector hr hsplit hbefore hid =>
    have hlt : before.length < s.client.commands.length := by simp [hsplit]
    have hload : t.vector.load t.vector.generation before.length = some cmd := by
      rw [hvector.load hlt, hsplit, List.getElem?_append_right le_rfl, Nat.sub_self]
      rfl
    have htype := h.inv.type_eq h.length hr (find?_split hsplit hbefore hid).1
    dsimp only at hget
    rw [hload] at hget
    dsimp only at hget
    rw [htype, bne_self_eq_false, Bool.or_false] at hget
    cases hget
    exact hadvance _ (.erasing hvector hr hsplit hbefore hid)
  | @erasing r before behind cmd hvector hr hsplit hbefore hid =>
    dsimp only at hget
    rw [if_pos rfl] at hget
    cases hget
    obtain ⟨hfind, herase⟩ := find?_split hsplit hbefore hid
    have hlen : t.vector.finish = before.length + 1 + behind.length := by
      rw [hvector.1, hsplit, List.length_append, List.length_cons]
      omega
    rw [hlen]
    rw [hsplit] at hvector
    exact hadvance _ (.moving hvector.gap hr hfind herase)
  | @moving r before behind cmd hgap hr hfind herase =>
    dsimp only at hget
    cases behind with
    | nil =>
      rw [if_pos (by simp)] at hget
      cases hget
      exact hadvance _ (.shrinking hgap hr hfind (herase.trans (List.append_nil _)))
    | cons next behind =>
      obtain ⟨vector, hmove, hgeneration, hgap'⟩ := hgap.moveDown
      rw [if_neg (by simp), hmove] at hget
      cases hget
      have hlen : before.length + 1 = (before ++ [next]).length := by simp
      have hend : before.length + 1 + (next :: behind).length =
          (before ++ [next]).length + 1 + behind.length := by
        simp only [List.length_append, List.length_cons, List.length_nil]
        omega
      refine ⟨s, h.inv, h.length, h.view, ?_, h.defined⟩
      dsimp only
      rw [hnext, hcaller, ← hgeneration, hend, hlen]
      exact .moving hgap' hr hfind (by rw [herase, List.append_cons])
  | @shrinking r rest cmd hgap hr hfind herase =>
    cases hget
    have hlen : t.vector.finish - 1 = rest.length := by
      rw [hgap.1, List.length_nil]
      omega
    rw [hlen]
    exact hadvance _ (.storing hgap hr hfind herase)
  | @storing r rest cmd hgap hr hfind herase =>
    subst herase
    obtain ⟨vector, htruncate, hvector⟩ := hgap.truncate
    dsimp only at hget
    rw [htruncate] at hget
    cases hget
    have hrespond := h.respond hr hcaller hnext hvector
    rw [hfind] at hrespond
    exact ⟨_, hrespond⟩

/-! ### Runs -/

theorem Phase.mono {s : State} {vector : RawVector Command} {next : UInt64}
    {caller : Option (PushBack Command)} {receiver : Receiver} {reports : List Report} {served : ℕ}
    (h : Phase s vector next caller receiver) (hreports : ∀ r ∈ s.reports, r ∈ reports) :
    Phase { s with served := served, reports := reports } vector next caller receiver := by
  have hvalid : ∀ r : Response, r.Valid s →
      r.Valid { s with served := served, reports := reports } := by
    rintro r ⟨report, hid, htype, hreceived, ⟨hreport, hmem⟩ | hstray⟩
    · exact ⟨report, hid, htype, hreceived, .inl ⟨hreport, hreports report hmem⟩⟩
    · exact ⟨report, hid, htype, hreceived, .inr hstray⟩
  cases h with
  | idle h => exact .idle h
  | loaded h hid hlen => exact .loaded h hid hlen
  | constructed h hid hlen => exact .constructed h hid hlen
  | replaced h hid hlen => exact .replaced h hid hlen
  | searching h hr hsplit hbefore => exact .searching h (hvalid _ hr) hsplit hbefore
  | found h hr hsplit hbefore hbehind => exact .found h (hvalid _ hr) hsplit hbefore hbehind
  | copying h hr hsplit hbefore hid => exact .copying h (hvalid _ hr) hsplit hbefore hid
  | erasing h hr hsplit hbefore hid => exact .erasing h (hvalid _ hr) hsplit hbefore hid
  | moving h hr hfind herase => exact .moving h (hvalid _ hr) hfind herase
  | shrinking h hr hfind herase => exact .shrinking h (hvalid _ hr) hfind herase
  | storing h hr hfind herase => exact .storing h (hvalid _ hr) hfind herase

/-- The server does not look at the list of commands or at the next id. -/
theorem serve_view (u : Uninit) (s : State) (next : UInt64) (refs : List ObjectReferences) :
    Commands.serve u (view s next) refs = (Commands.serve u s refs).map (view · next) := by
  have hwritten : (view s next).client.written = s.client.written := rfl
  unfold Commands.serve
  rw [hwritten]
  have hserved : (view s next).served = s.served := rfl
  rw [hserved]
  split
  · rfl
  · split
    · rfl
    · split_ifs <;> rfl

theorem Refines.serve {u : Uninit} {t : Threads} {s s' : State} {refs : List ObjectReferences}
    (h : Refines t s) (hserve : Commands.serve u t.toState refs = some s') :
    ∃ s'', Refines { t with toState := s' } s'' := by
  rw [h.view, serve_view] at hserve
  obtain ⟨s'', hserved, rfl⟩ := Option.map_eq_some_iff.1 hserve
  have hinv := h.inv.serve hserved
  obtain ⟨reports, rfl, hreports⟩ := serve_spec hserved
  exact ⟨_, hinv, h.length, rfl, h.phase.mono hreports, h.defined⟩

/-- **An access whose thread is alone is none that can be told from the outside, or it is the last
one of an operation that is one step.** -/
theorem Refines.step {u : Uninit} {spare : ℕ → ℕ} {t t' : Threads} {s : State} {a : Access}
    (h : Refines t s) (halone : t.Alone a) (hstep : t.step u spare a = some t') :
    ∃ s', Refines t' s' := by
  have hdefined : ¬ t.undefined = true := by rw [h.defined]; exact Bool.false_ne_true
  unfold Threads.step at hstep
  rw [if_neg hdefined] at hstep
  have hissued : t.issued = s.issued := by rw [h.view]; rfl
  have hreports : t.reports = s.reports := by rw [h.view]; rfl
  cases a with
  | findObjectsReferences addresses => exact ⟨s, h.call halone.1 halone.2 rfl hstep⟩
  | pauseApp => exact ⟨s, h.call halone.1 halone.2 rfl hstep⟩
  | resumeApp => exact ⟨s, h.call halone.1 halone.2 rfl hstep⟩
  | push => exact h.push hstep
  | serve refs =>
    obtain ⟨s', hserve, rfl⟩ := Option.map_eq_some_iff.1 hstep
    exact h.serve hserve
  | arrive i =>
    obtain ⟨r, hr, hreceive⟩ := Option.bind_eq_some_iff.1 hstep
    have hmem := hreports ▸ List.mem_of_getElem? hr
    obtain ⟨hframed, cmd, -, hid, -⟩ := h.inv.reports r hmem
    exact ⟨s, h.receive halone (by unfold Framed at hframed; omega) hid
      ⟨r, hid, rfl, rfl, .inl ⟨rfl, hmem⟩⟩ hreceive⟩
  | stray r =>
    dsimp only at hstep
    split at hstep
    · cases hstep
    · next requestId hid =>
      split_ifs at hstep with hstray
      have hframed := hstray.1
      exact ⟨s, h.receive halone (by unfold Framed at hframed; omega) hid
        ⟨r, hid, rfl, rfl, .inr ⟨rfl, hstray.1, hissued ▸ hstray.2⟩⟩ hstep⟩
  | get => exact h.get halone hstep

/-- **Requests and responses are matched in every run in which no operation of one thread on
`m_commands` falls into one of the other**, up to 2^64 commands, whatever the order of the responses
and however often they come. -/
theorem matched_of_alone {u : Uninit} {spare : ℕ → ℕ} {l : List Access} {t : Threads}
    (halone : Run.Along (Threads.step u spare) Threads.Alone {} l)
    (hrun : Run.run (Threads.step u spare) {} l = some t) : t.Matched := by
  have h : ∃ s, Refines t s :=
    Run.run_invariant (I := fun t => ∃ s, Refines t s)
      (fun _ _ _ h halone hstep => h.elim fun _ h => h.step halone hstep)
      ⟨_, Refines.initial⟩ halone hrun
  exact h.elim fun _ h => h.matched

/-- Two commands are issued and served, and the response to the second comes first. -/
def aloneRun : List Access :=
  [.pauseApp, .push, .push, .resumeApp, .push, .push, .serve [], .serve [], .arrive 1] ++
    List.replicate 8 .get

theorem matched_of_alone_aloneRun :
    ∃ t, Run.run (Threads.step ⟨0, 0, 0⟩ id) {} aloneRun = some t ∧ t.Matched := by
  have hsome : (Run.run (Threads.step ⟨0, 0, 0⟩ id) {} aloneRun).isSome := by decide +kernel
  obtain ⟨t, hrun⟩ := Option.isSome_iff_exists.1 hsome
  exact ⟨t, hrun, matched_of_alone (by decide +kernel) hrun⟩

/-- A new storage is twice as large as the full one. -/
def doubling (n : ℕ) : ℕ := n - 1

/-- Two commands are issued and served, and the response to the first is processed.  `get_command`
for the response to the second has loaded the end of the vector, from which it subtracts one; the
third command is issued; then the end is stored. -/
def raceRun : List Access :=
  [.pauseApp, .push, .push, .resumeApp, .push, .push, .serve [], .serve [], .arrive 0] ++
    List.replicate 8 .get ++ [.arrive 1] ++ List.replicate 6 .get ++ [.pauseApp, .push, .push, .get]

/-- The third command is neither answered nor in the vector. -/
theorem not_matched_of_race :
    ¬ ∀ (u : Uninit) (l : List Access) (t : Threads),
      Run.run (Threads.step u doubling) {} l = some t → t.Matched := by
  intro h
  have hlost : (Run.run (Threads.step ⟨0, 0, 0⟩ doubling) {} raceRun).any (fun t =>
      t.receiver = .idle ∧
        t.vector.contents ≠ t.issued.filter fun cmd => Unanswered t.arrived cmd) = true := by
    decide +kernel
  obtain ⟨t, hrun, hlost⟩ := (Option.any_eq_true _ _).1 hlost
  obtain ⟨hidle, hne⟩ := of_decide_eq_true hlost
  refine hne ((h _ _ t hrun).pending ?_)
  rw [hidle]
  exact id

end Commands

end Owlcat
