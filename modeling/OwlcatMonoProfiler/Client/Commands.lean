import OwlcatMonoProfiler.Client.Ingestion
import OwlcatMonoProfiler.Library.Run
import OwlcatMonoProfiler.Network.RoundTrip
import OwlcatMonoProfiler.Server.Runs

/-!
# Requests and their responses

The list `m_commands` of the client: calls of `find_objects_references`, `pause_app` and
`resume_app` put a command into it, and a response takes the command with its id out again.  Here
each call and each message is one step; `SharedCommands` splits them into accesses to the list.

* `Details.answer`: what a response does, whatever its type;
* `State`, `step`: the client and the command loop of the server.  Responses arrive in any order and
  any number of times, and so do responses with ids that were not issued;
* `Inv.step`: ids are not used twice as long as the counter does not overflow, so the commands in
  the list are the unanswered ones and a response finds its own command;
* `responses_matched`: every callback is called at most once, by the response to its command.
-/

namespace Owlcat

/-- The id of a response. -/
def Report.requestId : Report → Option UInt64
  | .alloc .. | .free .. => none
  | .references requestId _ => some requestId
  | .paused requestId _ => some requestId
  | .resumed requestId _ => some requestId

/-- The type of the commands a response is for. -/
def Report.commandType : Report → UInt8
  | .alloc .. | .free .. => 0
  | .references .. => Protocol.cmdReferences
  | .paused .. => Protocol.cmdPause
  | .resumed .. => Protocol.cmdResume

/-- The report is a response to the command. -/
def Report.Answers (r : Report) (cmd : Command) : Prop :=
  r.requestId = some cmd.requestId ∧ r.commandType = cmd.type

theorem ReadResult.of_andThen_ok {α β : Type} {a : ReadResult α} {old : β}
    {b : MemoryReader → ReadResult β} (h : (a.andThen old b).ok = true) :
    a.ok = true ∧ a.andThen old b = b a.reader := by
  unfold andThen at h ⊢
  split_ifs at h ⊢ with ha
  exact ⟨ha, rfl⟩

namespace Details

/-- Call the callback of the command with an id, and look at the size of the buffer. -/
def answer (d : Details) (requestId : UInt64) (type : UInt8) (received : Received) : Details :=
  match d.getCommand requestId type with
  | none => d
  | some (cmd, d) => (d.callback cmd received).flush

theorem processReferences_eq {u : Uninit} {msg : Packet} {requestId : UInt64}
    {objects : List ReceivedReferences} {reader : MemoryReader} (d : Details)
    (htype : msg.type = Protocol.srvReferences)
    (hread : readReport u msg = some ⟨true, .references requestId objects, reader⟩) :
    d.processMessage u msg =
      d.answer requestId Protocol.cmdReferences (.references requestId objects) := by
  have hne : msg.type ≠ Protocol.srvAlloc ∧ msg.type ≠ Protocol.srvFree := by
    rw [htype]
    decide
  rw [readReport, if_neg hne.1, if_neg hne.2, if_pos htype] at hread
  simp only [Option.some.injEq, ReadResult.mk.injEq, Received.references.injEq] at hread
  obtain ⟨hok, ⟨hid, hobjects⟩, -⟩ := hread
  obtain ⟨hcount, heq⟩ := ReadResult.of_andThen_ok hok
  rw [heq] at hobjects
  obtain ⟨hidok, hcountEq⟩ := ReadResult.of_andThen_ok hcount
  rw [hcountEq] at hcount hobjects
  rw [processMessage, if_neg hne.1, if_neg hne.2, if_pos htype, processReferences]
  simp only [hidok, hcount, hid, hobjects, Bool.not_true, Bool.false_eq_true, if_false]
  rfl

theorem processStatus_eq {u : Uninit} {reader r : MemoryReader} {requestId : UInt64} {ok : Bool}
    (d : Details) (type : UInt8) (received : UInt64 → Bool → Received)
    (hinj : ∀ id b id' b', received id b = received id' b' → id = id' ∧ b = b')
    (hread : (let id := reader.readUint64 u.uint64
      let error := id.andThen u.uint8 (·.readUint8 u.uint8)
      (⟨error.ok, received id.value (error.value == 0), error.reader⟩ : ReadResult Received)) =
        ⟨true, received requestId ok, r⟩) :
    d.processStatus u reader type received = d.answer requestId type (received requestId ok) := by
  simp only [ReadResult.mk.injEq] at hread
  obtain ⟨hok, hvalue, -⟩ := hread
  obtain ⟨hid, herror⟩ := hinj _ _ _ _ hvalue
  obtain ⟨hidok, heq⟩ := ReadResult.of_andThen_ok hok
  rw [heq] at hok herror
  rw [processStatus]
  simp only [hidok, hok, hid, herror, Bool.not_true, Bool.false_eq_true, if_false]
  rfl

/-- **A well-formed response is an answer with its contents.** -/
theorem processMessage_reportPacket (u : Uninit) (d : Details) {r : Report} {requestId : UInt64}
    (hlen : (reportPacket r).data.length < 2 ^ 64) (hid : r.requestId = some requestId) :
    d.processMessage u (reportPacket r) = d.answer requestId r.commandType r.received := by
  obtain ⟨reader, hread, -⟩ := readReport_reportPacket u r hlen
  cases r with
  | alloc => cases hid
  | free => cases hid
  | references id objects =>
    cases hid
    exact processReferences_eq d rfl hread
  | paused id ok =>
    cases hid
    refine processStatus_eq d _ Received.paused (fun _ _ _ _ h => ?_) (Option.some.inj hread)
    exact Received.paused.inj h
  | resumed id ok =>
    cases hid
    refine processStatus_eq d _ Received.resumed (fun _ _ _ _ h => ?_) (Option.some.inj hread)
    exact Received.resumed.inj h

/-- What an answer does to the list of commands and to the callbacks. -/
theorem answer_spec (d : Details) (requestId : UInt64) (type : UInt8) (received : Received) :
    let found := d.commands.find? fun cmd => cmd.requestId = requestId
    let d' := d.answer requestId type received
    d'.commands = d.commands.eraseP (fun cmd => cmd.requestId = requestId) ∧
      d'.callbacks = d.callbacks ++ (found.map fun cmd => (cmd, received)).toList ∧
      d'.assertFailed = (d.assertFailed || found.any fun cmd => cmd.type != type) ∧
      d'.nextRequestId = d.nextRequestId ∧ d'.written = d.written := by
  intro found d'
  cases hfound : d.commands.find? fun cmd => cmd.requestId = requestId with
  | none =>
    have hd' : d' = d := by simp only [d', answer, getCommand, hfound, Option.map_none]
    have herase := List.eraseP_of_forall_not (List.find?_eq_none.1 hfound)
    simp only [hd', found, hfound, herase, Option.map_none, Option.toList_none, List.append_nil,
      Option.any_none, Bool.or_false, and_self]
  | some cmd =>
    simp only [d', answer, getCommand, hfound, Option.map_some, found, Option.toList_some,
      Option.any_some]
    exact ⟨rfl, rfl, rfl, rfl, rfl⟩

end Details

/-! ### Lists with different ids -/

section Keys

variable {α β : Type} [DecidableEq β] {key : α → β} {l : List α}

/-- Only one element has a key, so erasing the first one erases all. -/
theorem eraseP_key (h : (l.map key).Nodup) (k : β) :
    l.eraseP (fun x => key x = k) = l.filter fun x => key x ≠ k := by
  induction l with
  | nil => rfl
  | cons x l ih =>
    obtain ⟨hx, hl⟩ := List.nodup_cons.1 h
    by_cases hk : key x = k
    · have hrest : l.filter (fun x => key x ≠ k) = l := by
        rw [List.filter_eq_self]
        intro y hy
        have hne : key y ≠ key x := fun he => hx (he ▸ List.mem_map_of_mem hy)
        simpa [← hk] using hne
      simp only [List.eraseP_cons, hk, List.filter_cons, ne_eq, not_true_eq_false, decide_true,
        decide_false, cond_true, Bool.false_eq_true, if_false]
      exact hrest.symm
    · simp only [List.eraseP_cons, hk, List.filter_cons, ne_eq, not_false_eq_true, decide_true,
        decide_false, cond_false, if_true, ih hl]

theorem find?_key (h : (l.map key).Nodup) {x : α} (hx : x ∈ l) :
    l.find? (fun y => key y = key x) = some x := by
  cases hfind : l.find? fun y => key y = key x with
  | none => simpa using List.find?_eq_none.1 hfind x hx
  | some y =>
    have hy : key y = key x := by simpa using List.find?_some hfind
    rw [List.inj_on_of_nodup_map h (List.mem_of_find?_eq_some hfind) hx hy]

end Keys

namespace Commands

open Protocol

/-- The response to a command, `refs` being the result of a search. -/
def respond (refs : List ObjectReferences) : Command → Report
  | .references requestId _ => .references requestId refs
  | .pause requestId => .paused requestId true
  | .resume requestId => .resumed requestId true

theorem respond_answers (refs : List ObjectReferences) (cmd : Command) :
    (respond refs cmd).Answers cmd := by
  cases cmd <;> exact ⟨rfl, rfl⟩

/-- The action of the worker thread for a command. -/
def action (frame : UInt64) (mem : Memory) (classOf : ClassLookup) :
    Command → WorkerThread.Action
  | .references requestId addresses => .findReferences requestId addresses frame mem classOf
  | .pause requestId => .pause requestId
  | .resume requestId => .resume requestId

/-- The worker thread reports one response to a command. -/
theorem eventsSink_action {w w' : WorkerThread} {frame : UInt64} {mem : Memory}
    {classOf : ClassLookup} {cmd : Command}
    (hstep : w.step (action frame mem classOf cmd) = some w') :
    ∃ refs, w'.eventsSink = w.eventsSink ++ [respond refs cmd] := by
  cases cmd with
  | references requestId addresses =>
    obtain ⟨result, -, rfl⟩ := Option.map_eq_some_iff.1 hstep
    refine ⟨result.filteredResults, ?_⟩
    unfold WorkerThread.refreshParents
    split_ifs <;> rfl
  | pause requestId => cases hstep; exact ⟨[], rfl⟩
  | resume requestId => cases hstep; exact ⟨[], rfl⟩

/-- A message fits its header, which has 32 bits for the length. -/
def Framed (msg : Packet) : Prop := msg.data.length < 2 ^ 32

instance (msg : Packet) : Decidable (Framed msg) := inferInstanceAs (Decidable (_ < _))

/-- The client, the commands of all calls, how many messages the server has taken, its responses,
and those that have reached the client. -/
structure State where
  client : Details := freshClient
  issued : List Command := []
  served : ℕ := 0
  reports : List Report := []
  arrived : List Report := []

/-- What can happen: a call, an iteration of the command loop of the server, the arrival of one of
its responses, or that of a response with an id that was not issued. -/
inductive Action
  | findObjectsReferences (addresses : List UInt64)
  | pauseApp
  | resumeApp
  | serve (refs : List ObjectReferences)
  | arrive (i : ℕ)
  | stray (r : Report)

/-- The server's loop: it reads a message and reports the result of the command. -/
def serve (u : Uninit) (s : State) (refs : List ObjectReferences) : Option State :=
  match s.client.written[s.served]? with
  | none => none
  | some msg =>
    match readCommand u msg with
    | none => some { s with served := s.served + 1 }
    | some cmd =>
      if Framed msg ∧ Framed (reportPacket (respond refs cmd.value)) then
        some { s with served := s.served + 1, reports := s.reports ++ [respond refs cmd.value] }
      else none

/-- It takes the next message, and may report one result more. -/
theorem serve_spec {u : Uninit} {s s' : State} {refs : List ObjectReferences}
    (hserve : serve u s refs = some s') :
    ∃ reports, s' = { s with served := s.served + 1, reports := reports } ∧
      ∀ r ∈ s.reports, r ∈ reports := by
  unfold serve at hserve
  split at hserve
  · cases hserve
  · split at hserve
    · cases hserve
      exact ⟨s.reports, rfl, fun _ hr => hr⟩
    · split_ifs at hserve
      cases hserve
      exact ⟨_, rfl, fun _ hr => List.mem_append_left _ hr⟩

/-- The state after an action. -/
def step (u : Uninit) (s : State) : Action → Option State
  | .findObjectsReferences addresses =>
    some { s with
      client := s.client.findObjectsReferences addresses
      issued := s.issued ++ [.references s.client.nextRequestId addresses] }
  | .pauseApp =>
    some { s with
      client := s.client.pauseApp, issued := s.issued ++ [.pause s.client.nextRequestId] }
  | .resumeApp =>
    some { s with
      client := s.client.resumeApp, issued := s.issued ++ [.resume s.client.nextRequestId] }
  | .serve refs => serve u s refs
  | .arrive i =>
    (s.reports[i]?).map fun r =>
      { s with
        client := s.client.processMessage u (reportPacket r), arrived := s.arrived ++ [r] }
  | .stray r =>
    match r.requestId with
    | none => none
    | some requestId =>
      if Framed (reportPacket r) ∧ requestId ∉ s.issued.map Command.requestId then
        some { s with client := s.client.processMessage u (reportPacket r) }
      else none

/-- No response to the command is among those that have arrived. -/
def Unanswered (arrived : List Report) (cmd : Command) : Prop :=
  ∀ r ∈ arrived, r.requestId ≠ some cmd.requestId

instance (arrived : List Report) (cmd : Command) : Decidable (Unanswered arrived cmd) :=
  inferInstanceAs (Decidable (∀ r ∈ arrived, _))

theorem unanswered_append {arrived : List Report} {r : Report} {cmd : Command} :
    Unanswered (arrived ++ [r]) cmd ↔
      Unanswered arrived cmd ∧ r.requestId ≠ some cmd.requestId := by
  simp [Unanswered, or_imp, forall_and]

/-- **Requests and responses are matched.** -/
structure Matched (s : State) : Prop where
  /-- Each callback is called at most once. -/
  once : (s.client.callbacks.map Prod.fst).Nodup
  /-- Only a response to the command calls it, with its contents. -/
  own : ∀ call ∈ s.client.callbacks, call.1 ∈ s.issued ∧
    ∃ r ∈ s.arrived, r.Answers call.1 ∧ call.2 = r.received
  /-- The commands in the list are the unanswered ones. -/
  pending : s.client.commands = s.issued.filter fun cmd => Unanswered s.arrived cmd
  /-- The callbacks of the others were called. -/
  called : ∀ cmd ∈ s.issued, ¬ Unanswered s.arrived cmd → cmd ∈ s.client.callbacks.map Prod.fst
  /-- The downcast in `get_command` is to the type of the command. -/
  sameType : s.client.assertFailed = false

/-- **The invariant of requests and responses.** -/
structure Inv (s : State) : Prop extends Matched s where
  nextId : s.client.nextRequestId = UInt64.ofNat s.issued.length
  ids : s.issued.map Command.requestId = (List.range s.issued.length).map UInt64.ofNat
  written : ∀ msg ∈ s.client.written, ∃ cmd ∈ s.issued, msg = cmd.packet
  reports : ∀ r ∈ s.reports, Framed (reportPacket r) ∧ ∃ cmd ∈ s.issued, r.Answers cmd
  arrived : ∀ r ∈ s.arrived, r ∈ s.reports

theorem Inv.initial : Inv {} :=
  ⟨⟨List.nodup_nil, by simp [freshClient, Details.start], rfl, by simp, rfl⟩, rfl, rfl,
    by simp [freshClient, Details.start], by simp, by simp⟩

/-- Up to 2^64 commands have different ids. -/
theorem Inv.nodup_ids {s : State} (h : Inv s) (hlen : s.issued.length ≤ 2 ^ 64) :
    (s.issued.map Command.requestId).Nodup := by
  rw [h.ids]
  refine List.Nodup.map_on (fun m hm n hn hmn => ?_) List.nodup_range
  have hm' : m < 2 ^ 64 := (List.mem_range.1 hm).trans_le hlen
  have hn' : n < 2 ^ 64 := (List.mem_range.1 hn).trans_le hlen
  rw [← UInt64.toNat_ofNat_of_lt' hm', hmn, UInt64.toNat_ofNat_of_lt' hn']

/-- A call puts its command into the list, under an id that was not used before. -/
theorem Inv.issue {s : State} (h : Inv s) (hlen : s.issued.length < 2 ^ 64) {cmd : Command}
    (hid : cmd.requestId = s.client.nextRequestId) :
    Inv { s with client := s.client.addCommand cmd, issued := s.issued ++ [cmd] } := by
  have hids : (s.issued ++ [cmd]).map Command.requestId =
      (List.range (s.issued ++ [cmd]).length).map UInt64.ofNat := by
    rw [List.map_append, h.ids, List.length_append, List.length_singleton, List.range_succ,
      List.map_append, List.map_singleton, List.map_singleton, hid, h.nextId]
  have hnew : cmd.requestId ∉ s.issued.map Command.requestId := by
    intro hmem
    rw [h.ids, hid, h.nextId] at hmem
    obtain ⟨m, hm, heq⟩ := List.mem_map.1 hmem
    have hm' := List.mem_range.1 hm
    have := congrArg UInt64.toNat heq
    rw [UInt64.toNat_ofNat_of_lt' (hm'.trans hlen), UInt64.toNat_ofNat_of_lt' hlen] at this
    omega
  -- a response belongs to a command that was issued before
  have hunanswered : Unanswered s.arrived cmd := by
    intro r hr heq
    obtain ⟨-, cmd', hcmd', hanswers⟩ := h.reports r (h.arrived r hr)
    rw [hanswers.1, Option.some.injEq] at heq
    exact hnew (heq ▸ List.mem_map_of_mem hcmd')
  refine ⟨⟨h.once, fun call hcall => ?_, ?_, fun cmd' hcmd' ha => ?_, h.sameType⟩, ?_, hids,
    fun msg hmsg => ?_, fun r hr => ?_, h.arrived⟩
  · obtain ⟨hissued, hown⟩ := h.own call hcall
    exact ⟨List.mem_append_left _ hissued, hown⟩
  · change s.client.commands ++ [cmd] = _
    have hlast : [cmd].filter (fun cmd => Unanswered s.arrived cmd) = [cmd] := by
      simpa using hunanswered
    rw [List.filter_append, h.pending]
    exact congrArg _ hlast.symm
  · rcases List.mem_append.1 hcmd' with hcmd' | hcmd'
    · exact h.called cmd' hcmd' ha
    · rw [List.mem_singleton.1 hcmd'] at ha
      exact absurd hunanswered ha
  · change s.client.nextRequestId + 1 = _
    rw [h.nextId, List.length_append, List.length_singleton, UInt64.ofNat_add]
    rfl
  · have hmsg' : msg ∈ s.client.written ∨ msg = cmd.packet := by
      simp only [Details.addCommand] at hmsg
      split_ifs at hmsg
      · simpa using hmsg
      · exact Or.inl hmsg
    rcases hmsg' with hmsg' | rfl
    · obtain ⟨cmd', hcmd', rfl⟩ := h.written msg hmsg'
      exact ⟨cmd', List.mem_append_left _ hcmd', rfl⟩
    · exact ⟨cmd, by simp, rfl⟩
  · obtain ⟨hframed, cmd', hcmd', hanswers⟩ := h.reports r hr
    exact ⟨hframed, cmd', List.mem_append_left _ hcmd', hanswers⟩

theorem Inv.serve {u : Uninit} {s t : State} {refs : List ObjectReferences} (h : Inv s)
    (hstep : serve u s refs = some t) : Inv t := by
  unfold Commands.serve at hstep
  cases hmsg : s.client.written[s.served]? with
  | none => simp [hmsg] at hstep
  | some msg =>
    obtain ⟨cmd, hcmd, rfl⟩ := h.written msg (List.mem_of_getElem? hmsg)
    simp only [hmsg] at hstep
    cases hread : readCommand u cmd.packet with
    | none =>
      simp only [hread, Option.some.injEq] at hstep
      subst hstep
      exact ⟨⟨h.once, h.own, h.pending, h.called, h.sameType⟩, h.nextId, h.ids, h.written,
        h.reports, h.arrived⟩
    | some found =>
      simp only [hread] at hstep
      split_ifs at hstep with hframed
      cases hstep
      have hvalue : found.value = cmd := by
        obtain ⟨r, hr, -⟩ := readCommand_packet u cmd (by
          have := hframed.1
          unfold Framed at this
          omega)
        rw [hr, Option.some.injEq] at hread
        rw [← hread]
      rw [hvalue] at hframed ⊢
      refine ⟨⟨h.once, h.own, h.pending, h.called, h.sameType⟩, h.nextId, h.ids, h.written,
        fun r hr => ?_, fun r hr => ?_⟩
      · rcases List.mem_append.1 hr with hr | hr
        · exact h.reports r hr
        · rw [List.mem_singleton.1 hr]
          exact ⟨hframed.2, cmd, hcmd, respond_answers refs cmd⟩
      · exact List.mem_append_left _ (h.arrived r hr)

theorem Inv.nodup_pending {s : State} (h : Inv s) (hlen : s.issued.length ≤ 2 ^ 64) :
    (s.client.commands.map Command.requestId).Nodup := by
  rw [h.pending]
  exact (h.nodup_ids hlen).sublist (List.filter_sublist.map _)

/-- One more response answers the commands with its id. -/
theorem filter_unanswered_append (issued : List Command) {arrived : List Report} {r : Report}
    {requestId : UInt64} (hid : r.requestId = some requestId) :
    issued.filter (fun cmd => Unanswered (arrived ++ [r]) cmd) =
      (issued.filter fun cmd => Unanswered arrived cmd).filter
        fun cmd => cmd.requestId ≠ requestId := by
  rw [List.filter_filter]
  refine List.filter_congr fun cmd _ => ?_
  rw [← Bool.decide_and, decide_eq_decide, unanswered_append, hid, and_comm]
  simp [eq_comm]

/-- If the command of a response has been called, everything answered so far has been called. -/
theorem Inv.called_arrive {s : State} {r : Report} {cmd : Command}
    {calls : List (Command × Received)} (h : Inv s) (hlen : s.issued.length ≤ 2 ^ 64)
    (hcmd : cmd ∈ s.issued) (hid : r.requestId = some cmd.requestId)
    (hmem : cmd ∈ (s.client.callbacks ++ calls).map Prod.fst) :
    ∀ cmd' ∈ s.issued, ¬ Unanswered (s.arrived ++ [r]) cmd' →
      cmd' ∈ (s.client.callbacks ++ calls).map Prod.fst := by
  intro cmd' hcmd' ha
  by_cases hold : Unanswered s.arrived cmd'
  · have heq : r.requestId = some cmd'.requestId := by
      by_contra hne
      exact ha (unanswered_append.2 ⟨hold, hne⟩)
    rw [hid, Option.some.injEq] at heq
    rwa [List.inj_on_of_nodup_map (h.nodup_ids hlen) hcmd' hcmd heq.symm]
  · rw [List.map_append]
    exact List.mem_append_left _ (h.called cmd' hcmd' hold)

/-- A response finds its command, unless another response to it has come before. -/
theorem Inv.arrive {u : Uninit} {s : State} {r : Report} (h : Inv s)
    (hlen : s.issued.length ≤ 2 ^ 64) (hr : r ∈ s.reports) :
    Inv { s with
      client := s.client.processMessage u (reportPacket r), arrived := s.arrived ++ [r] } := by
  obtain ⟨hframed, cmd, hcmd, hid, htype⟩ := h.reports r hr
  have hnodup := h.nodup_ids hlen
  have hkey : ∀ cmd' ∈ s.issued, cmd'.requestId = cmd.requestId → cmd' = cmd :=
    fun cmd' hcmd' heq => List.inj_on_of_nodup_map hnodup hcmd' hcmd heq
  have hpendingNodup := h.nodup_pending hlen
  obtain ⟨hcommands, hcallbacks, hassert, hnext, hwritten⟩ :=
    s.client.answer_spec cmd.requestId r.commandType r.received
  have hanswer := s.client.processMessage_reportPacket u (by unfold Framed at hframed; omega) hid
  rw [← hanswer] at hcommands hcallbacks hassert hnext hwritten
  have hpending : (s.client.processMessage u (reportPacket r)).commands =
      s.issued.filter fun cmd' => Unanswered (s.arrived ++ [r]) cmd' := by
    rw [hcommands, eraseP_key hpendingNodup, h.pending, filter_unanswered_append _ hid]
  have hrest : ∀ calls, (s.client.processMessage u (reportPacket r)).callbacks =
      s.client.callbacks ++ calls → cmd ∈ (s.client.callbacks ++ calls).map Prod.fst →
      ∀ cmd' ∈ s.issued, ¬ Unanswered (s.arrived ++ [r]) cmd' →
        cmd' ∈ (s.client.processMessage u (reportPacket r)).callbacks.map Prod.fst := by
    intro calls hcalls hmem
    rw [hcalls]
    exact h.called_arrive hlen hcmd hid hmem
  have hold : ∀ call ∈ s.client.callbacks, call.1 ∈ s.issued ∧
      ∃ r' ∈ s.arrived ++ [r], r'.Answers call.1 ∧ call.2 = r'.received := by
    intro call hcall
    obtain ⟨hissued, r', hr', hown⟩ := h.own call hcall
    exact ⟨hissued, r', List.mem_append_left _ hr', hown⟩
  have harrived : ∀ r' ∈ s.arrived ++ [r], r' ∈ s.reports := by
    intro r' hr'
    rcases List.mem_append.1 hr' with hr' | hr'
    · exact h.arrived r' hr'
    · rwa [List.mem_singleton.1 hr']
  by_cases hun : Unanswered s.arrived cmd
  · -- the first response: its command is still in the list
    have hmem : cmd ∈ s.client.commands := by
      rw [h.pending]
      exact List.mem_filter.2 ⟨hcmd, decide_eq_true hun⟩
    have hfind := find?_key hpendingNodup hmem
    rw [hfind] at hcallbacks hassert
    simp only [Option.map_some, Option.toList_some, Option.any_some] at hcallbacks hassert
    refine ⟨⟨?_, fun call hcall => ?_, hpending, hrest _ hcallbacks (by simp), ?_⟩,
      hnext.trans h.nextId, h.ids, fun msg hmsg => h.written msg (hwritten ▸ hmsg), h.reports,
      harrived⟩
    · change ((s.client.processMessage u (reportPacket r)).callbacks.map Prod.fst).Nodup
      rw [hcallbacks, List.map_append, List.map_singleton]
      refine h.once.append (List.nodup_singleton _) ?_
      rw [List.disjoint_singleton]
      intro hcalled
      obtain ⟨call, hcall, hfst⟩ := List.mem_map.1 hcalled
      obtain ⟨-, r', hr', hanswers, -⟩ := h.own call hcall
      rw [hfst] at hanswers
      exact hun r' hr' hanswers.1
    · rw [hcallbacks] at hcall
      rcases List.mem_append.1 hcall with hcall | hcall
      · exact hold call hcall
      · rw [List.mem_singleton.1 hcall]
        exact ⟨hcmd, r, by simp, ⟨hid, htype⟩, rfl⟩
    · exact hassert.trans (by simp [h.sameType, htype])
  · -- a repeated response: no command has its id any more
    have hfind : s.client.commands.find? (fun cmd' => cmd'.requestId = cmd.requestId) = none := by
      refine List.find?_eq_none.2 fun cmd' hcmd' heq => hun ?_
      rw [h.pending] at hcmd'
      obtain ⟨hissued, hunanswered⟩ := List.mem_filter.1 hcmd'
      rw [← hkey cmd' hissued (by simpa using heq)]
      exact of_decide_eq_true hunanswered
    rw [hfind] at hcallbacks hassert
    simp only [Option.map_none, Option.toList_none, Option.any_none, Bool.or_false]
      at hcallbacks hassert
    refine ⟨⟨?_, fun call hcall => ?_, hpending, hrest _ hcallbacks ?_, hassert.trans h.sameType⟩,
      hnext.trans h.nextId, h.ids, fun msg hmsg => h.written msg (hwritten ▸ hmsg), h.reports,
      harrived⟩
    · change ((s.client.processMessage u (reportPacket r)).callbacks.map Prod.fst).Nodup
      rw [hcallbacks, List.append_nil]
      exact h.once
    · rw [hcallbacks, List.append_nil] at hcall
      exact hold call hcall
    · rw [List.append_nil]
      exact h.called cmd hcmd hun

/-- A response with an id that was not issued changes nothing. -/
theorem processMessage_stray {u : Uninit} {s : State} {r : Report} {requestId : UInt64} (h : Inv s)
    (hframed : Framed (reportPacket r)) (hid : r.requestId = some requestId)
    (hnot : requestId ∉ s.issued.map Command.requestId) :
    s.client.processMessage u (reportPacket r) = s.client := by
  have hfind : s.client.commands.find? (fun cmd => cmd.requestId = requestId) = none := by
    refine List.find?_eq_none.2 fun cmd hcmd heq => hnot ?_
    rw [h.pending] at hcmd
    have heq' : cmd.requestId = requestId := by simpa using heq
    exact heq' ▸ List.mem_map_of_mem (List.mem_filter.1 hcmd).1
  rw [s.client.processMessage_reportPacket u (by unfold Framed at hframed; omega) hid,
    Details.answer, Details.getCommand, hfind]
  rfl

/-- **Every action keeps the invariant**, up to 2^64 commands. -/
theorem Inv.step {u : Uninit} {s t : State} {a : Action} (h : s.issued.length ≤ 2 ^ 64 → Inv s)
    (hstep : step u s a = some t) (hlen : t.issued.length ≤ 2 ^ 64) : Inv t := by
  have hissue : ∀ cmd, (s.issued ++ [cmd]).length ≤ 2 ^ 64 → s.issued.length < 2 ^ 64 := by
    intro cmd hle
    rw [List.length_append, List.length_singleton] at hle
    omega
  cases a with
  | findObjectsReferences addresses =>
    cases hstep
    have hlt := hissue _ hlen
    exact (h hlt.le).issue hlt rfl
  | pauseApp =>
    cases hstep
    have hlt := hissue _ hlen
    exact (h hlt.le).issue hlt rfl
  | resumeApp =>
    cases hstep
    have hlt := hissue _ hlen
    exact (h hlt.le).issue hlt rfl
  | serve refs =>
    have hissued : t.issued = s.issued := by
      obtain ⟨reports, rfl, -⟩ := serve_spec hstep
      rfl
    exact (h (hissued ▸ hlen)).serve hstep
  | arrive i =>
    obtain ⟨r, hr, rfl⟩ := Option.map_eq_some_iff.1 hstep
    exact (h hlen).arrive hlen (List.mem_of_getElem? hr)
  | stray r =>
    simp only [Commands.step] at hstep
    cases hid : r.requestId with
    | none => simp [hid] at hstep
    | some requestId =>
      simp only [hid] at hstep
      split_ifs at hstep with hstray
      cases hstep
      have hinv := h hlen
      rw [processMessage_stray hinv hstray.1 hid hstray.2]
      exact hinv

/-- **Requests and responses are matched in every run** with at most 2^64 commands, whatever the
order of the responses and however often they come. -/
theorem responses_matched {u : Uninit} {l : List Action} {s : State}
    (hrun : Run.run (step u) {} l = some s) (hlen : s.issued.length ≤ 2 ^ 64) : Matched s := by
  have h : s.issued.length ≤ 2 ^ 64 → Inv s :=
    Run.reachable_invariant (I := fun s => s.issued.length ≤ 2 ^ 64 → Inv s)
      (fun _ _ _ h hstep => Inv.step h hstep) (fun _ => Inv.initial) ⟨l, hrun⟩
  exact (h hlen).toMatched

/-! ### When the ids start again -/

/-- The client after `n` calls of `pause_app`. -/
def pausing (n : ℕ) : List Command := (List.range n).map fun i => .pause (UInt64.ofNat i)

theorem run_pauseApp (u : Uninit) (n : ℕ) :
    ∃ s, Run.run (step u) {} (List.replicate n .pauseApp) = some s ∧ s.issued = pausing n ∧
      s.client.commands = pausing n ∧ s.client.nextRequestId = UInt64.ofNat n ∧
      s.client.written = (pausing n).map Command.packet ∧ s.client.socketOpen ∧ s.served = 0 ∧
      s.reports = [] ∧ s.client.assertFailed = false := by
  induction n with
  | zero => exact ⟨{}, rfl, rfl, rfl, rfl, rfl, rfl, rfl, rfl, rfl⟩
  | succ n ih =>
    obtain ⟨s, hrun, hissued, hcommands, hnext, hwritten, hopen, hserved, hreports, hassert⟩ := ih
    refine ⟨{ s with
      client := s.client.pauseApp, issued := s.issued ++ [.pause s.client.nextRequestId] },
      ?_, ?_, ?_, ?_, ?_, hopen, hserved, hreports, hassert⟩
    · rw [List.replicate_succ', Run.run_append, hrun]
      rfl
    · simp [pausing, List.range_succ, hissued, hnext]
    · simp [pausing, List.range_succ, hcommands, hnext, Details.pauseApp, Details.addCommand]
    · simp [hnext, Details.pauseApp, Details.addCommand, UInt64.ofNat_add]
    · simp [pausing, List.range_succ, hwritten, hnext, hopen, Details.pauseApp, Details.addCommand]

/-- When the counter is back at 0, a second response to the first command is taken for one to the
latest. -/
theorem not_matched_of_overflow (u : Uninit) {n : ℕ} (hn : UInt64.ofNat (n + 1) = 0) :
    ∃ s, Run.run (step u) {} (List.replicate (n + 1) .pauseApp ++
      [.findObjectsReferences [], .serve [], .arrive 0, .arrive 0]) = some s ∧ ¬ Matched s := by
  obtain ⟨s, hrun, -, hcommands, hnext, hwritten, hopen, hserved, hreports, hassert⟩ :=
    run_pauseApp u (n + 1)
  rw [hn] at hnext
  have hcons : pausing (n + 1) =
      .pause 0 :: (List.range n).map fun i => .pause (UInt64.ofNat (i + 1)) := by
    simp [pausing, List.range_succ_eq_map, Function.comp_def]
  -- the first pause and the search have the same id, and the answer to the pause comes twice
  let answer : Report := .paused 0 true
  have hanswer : ∀ d : Details, d.processMessage u (reportPacket answer) =
      d.answer 0 Protocol.cmdPause answer.received :=
    fun d => d.processMessage_reportPacket u (by decide) rfl
  let s₁ : State := { s with
    client := s.client.findObjectsReferences []
    issued := s.issued ++ [.references s.client.nextRequestId []] }
  let s₂ : State := { s₁ with served := 1, reports := [answer] }
  let arrive (s : State) : State := { s with
    client := s.client.processMessage u (reportPacket answer), arrived := s.arrived ++ [answer] }
  have hserve : serve u s₁ [] = some s₂ := by
    obtain ⟨reader, hread, -⟩ := readCommand_packet u (.pause 0) (by decide)
    have hfirst : s₁.client.written[s₁.served]? = some (Command.pause 0).packet := by
      simp [s₁, Details.findObjectsReferences, Details.addCommand, hopen, hserved, hwritten, hcons]
    have hframed : Framed (Command.pause 0).packet ∧ Framed (reportPacket answer) := by decide
    have hnext : serve u s₁ [] =
        some { s₁ with served := s₁.served + 1, reports := s₁.reports ++ [answer] } := by
      rw [serve, hfirst]
      dsimp only
      rw [hread]
      exact if_pos hframed
    rw [hnext]
    simp only [s₂, s₁, hserved, hreports]
    rfl
  refine ⟨arrive (arrive s₂), ?_, fun h => ?_⟩
  · rw [Run.run_append, hrun]
    simp only [Option.bind_some, Run.run_cons, step, Run.run_nil]
    change (serve u s₁ []).bind _ = _
    rw [hserve]
    rfl
  · obtain ⟨hcommands₁, hcallbacks₁, -⟩ :=
      s₂.client.answer_spec 0 Protocol.cmdPause answer.received
    obtain ⟨-, hcallbacks₂, hassert₂, -⟩ :=
      (arrive s₂).client.answer_spec 0 Protocol.cmdPause answer.received
    rw [← hanswer] at hcommands₁ hcallbacks₁ hcallbacks₂ hassert₂
    have hlist : s₂.client.commands = .pause 0 ::
        ((List.range n).map (fun i => .pause (UInt64.ofNat (i + 1))) ++ [.references 0 []]) := by
      simp [s₂, s₁, Details.findObjectsReferences, Details.addCommand, hcommands, hcons, hnext]
    simp only [hlist, List.find?_cons, List.eraseP_cons, Command.requestId, decide_true, cond_true,
      Option.map_some, Option.toList_some] at hcommands₁ hcallbacks₁
    change (arrive s₂).client.commands = _ at hcommands₁
    change (arrive s₂).client.callbacks = _ at hcallbacks₁
    cases hfind : (arrive s₂).client.commands.find? fun cmd => cmd.requestId = 0 with
    | none =>
      rw [hcommands₁] at hfind
      simpa [Command.requestId] using List.find?_eq_none.1 hfind (.references 0 []) (by simp)
    | some cmd =>
      -- the second answer finds a command, which is not the first one, and not of its type either
      rw [hfind] at hcallbacks₂ hassert₂
      have hid : cmd.requestId = 0 := by simpa using List.find?_some hfind
      have htype : cmd.type = Protocol.cmdPause := by
        have hfalse := hassert₂.symm.trans h.sameType
        simpa using (Bool.or_eq_false_iff.1 hfalse).2
      obtain rfl : cmd = .pause 0 := by
        cases cmd with
        | pause requestId => exact congrArg Command.pause hid
        | references => exact absurd htype (by simp [Command.type, cmdReferences, cmdPause])
        | resume => exact absurd htype (by simp [Command.type, cmdResume, cmdPause])
      have honce := h.once
      change (((arrive s₂).client.processMessage u (reportPacket answer)).callbacks.map
        Prod.fst).Nodup at honce
      rw [hcallbacks₂, hcallbacks₁] at honce
      simp [List.nodup_append] at honce

/-- The counter of request ids overflows after 2^64 calls. -/
theorem responses_not_matched :
    ¬ ∀ (l : List Action) (s : State), Run.run (step ⟨0, 0, 0⟩) {} l = some s → Matched s := by
  intro h
  obtain ⟨s, hrun, hnot⟩ := @not_matched_of_overflow ⟨0, 0, 0⟩ (2 ^ 64 - 1) rfl
  exact hnot (h _ s hrun)

end Commands

end Owlcat
