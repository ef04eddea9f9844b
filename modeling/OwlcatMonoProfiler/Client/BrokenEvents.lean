import OwlcatMonoProfiler.Client.Isolation
import OwlcatMonoProfiler.Common.Fields

/-!
# Broken messages about events

`process_messages` on payloads that may be cut anywhere, with the exception of `str.resize` in
`read_string` and the breakpoint of the `WIN32` build.

* `allocThrows`, `objectsLoop`: the reads of a message, as far as an exception lets them;
* `outOfOrder`: the check of the `WIN32` build, which comes before the one for broken messages;
* `receiveMessage`: an iteration of the message loop; `none` when it does not come to its end;
* `HasFields`: the payload contains every field of an event;
* `SameEventState`, `RejectsBroken`: the state events change, and what should become of it;
* `rejectsBroken_iff`: an allocation is rejected exactly when no declared length overflows and the
  frame passes the check, a deallocation exactly when already its frame is missing.
-/

namespace Owlcat

open Protocol

/-! ### Messages and exceptions -/

/-- The reads of an `SRV_ALLOC` message up to the first string. -/
def readFixed (u : Uninit) (r : MemoryReader) : ReadResult UInt32 :=
  let frame := r.readUint64 u.uint64
  let addr := frame.andThen u.uint64 (·.readUint64 u.uint64)
  addr.andThen u.uint32 (·.readUint32 u.uint32)

/-- The reads of an `SRV_ALLOC` message come to a string for which `str.resize` throws. -/
def allocThrows (u : Uninit) (r : MemoryReader) : Bool :=
  let size := readFixed u r
  let name := size.andThen [] (·.readString [])
  size.ok && size.reader.stringCall.isNone || name.ok && name.reader.stringCall.isNone

/-- Frames should always be sequential: the check the `WIN32` build makes on the variable, whether
or not the frame could be read. -/
def outOfOrder (u : Uninit) (d : Recorder) (r : MemoryReader) : Bool :=
  let frame := r.readUint64 u.uint64
  frame.value < d.prevFrame && d.prevFrame != Recorder.noFrame

/-- What the loop over the objects of an `SRV_REFERENCES` message does: how often its body and that
of the loop over parents are run, and the objects unless it throws. -/
structure ObjectsLoop where
  iterations : ℕ
  objects : Option (List ReceivedReferences)

/-- The loop over `n` objects. -/
def objectsLoop (u : Uninit) : ℕ → MemoryReader → ObjectsLoop
  | 0, _ => ⟨0, some []⟩
  | n + 1, r =>
    let addr := r.readVarint u.uint64
    if addr.reader.stringCall.isNone then ⟨1, none⟩
    else
      let type := addr.reader.readString []
      let count := type.reader.readVarint u.uint64
      let parents := readParents u count.value.toNat count.reader
      let rest := objectsLoop u n parents.reader
      ⟨1 + count.value.toNat + rest.iterations,
        rest.objects.map fun objects => ⟨addr.value, type.value, parents.value⟩ :: objects⟩

/-- A loop that does not throw returns the objects. -/
theorem objects_objectsLoop {u : Uninit} {n : ℕ} {r : MemoryReader}
    {objects : List ReceivedReferences} (h : (objectsLoop u n r).objects = some objects) :
    objects = (readObjects u n r).value := by
  induction n generalizing r objects with
  | zero =>
    cases h
    rfl
  | succ n ih =>
    simp only [objectsLoop] at h
    split_ifs at h
    obtain ⟨rest, hrest, rfl⟩ := Option.map_eq_some_iff.1 h
    rw [ih hrest]
    rfl

namespace Details

/-- The branch of `SRV_REFERENCES`: how often the loops are run, and the client afterwards unless
they throw. -/
def receiveReferences (u : Uninit) (d : Details) (reader : MemoryReader) : ℕ × Option Details :=
  let requestId := reader.readUint64 u.uint64
  if !requestId.ok then (0, some d)
  else match d.getCommand requestId.value cmdReferences with
    | none => (0, some d)
    | some (cmd, d) =>
      let count := requestId.reader.readVarint u.uint64
      if !count.ok then (0, some d)
      else
        let loop := objectsLoop u count.value.toNat count.reader
        (loop.iterations, loop.objects.map fun objects =>
          (d.callback cmd (.references requestId.value objects)).flush)

/-- The loop of `process_messages`, for a message; `none` when an exception leaves it, or when the
`WIN32` build comes to its `__debugbreak`, which ends the process. -/
def receiveMessage (win32 : Bool) (u : Uninit) (d : Details) (msg : Packet) : Option Details :=
  if msg.type = srvAlloc ∧ allocThrows u { storage := msg.data } then none
  else if msg.type = srvAlloc ∧ win32 ∧ outOfOrder u d.toRecorder { storage := msg.data } then none
  else if msg.type = srvReferences then (d.receiveReferences u { storage := msg.data }).2
  else some (d.processMessage u msg)

/-- Without an exception, an answer is processed. -/
theorem processReferences_of_receive {u : Uninit} {d d' : Details} {reader : MemoryReader}
    (h : (d.receiveReferences u reader).2 = some d') : d' = d.processReferences u reader := by
  simp only [receiveReferences] at h
  simp only [processReferences]
  cases hcmd : d.getCommand (reader.readUint64 u.uint64).value cmdReferences with
  | none =>
    rw [hcmd] at h
    split_ifs at h ⊢
    all_goals
      cases h
      rfl
  | some found =>
    rw [hcmd] at h
    simp only at h ⊢
    split_ifs at h ⊢
    · cases h
      rfl
    · cases h
      rfl
    · obtain ⟨objects, hobjects, rfl⟩ := Option.map_eq_some_iff.1 h
      rw [objects_objectsLoop hobjects]

/-- `processMessage` is what both builds do with a message when they come to its end. -/
theorem processMessage_of_receive {win32 : Bool} {u : Uninit} {d d' : Details} {msg : Packet}
    (h : d.receiveMessage win32 u msg = some d') : d' = d.processMessage u msg := by
  unfold receiveMessage at h
  split_ifs at h with _ _ htype
  · rw [processReferences_of_receive h, processMessage, if_neg, if_neg, if_pos htype]
    all_goals
      rw [htype]
      decide
  · cases h
    rfl

end Details

/-! ### Fields -/

/-- A frame, an address, a size, a name and a callstack. -/
def HasAllocFields (payload : List UInt8) : Prop :=
  20 ≤ payload.length ∧
    ((stringField (payload.drop 20)).bind fun name => stringField name.2).isSome

/-- The payload contains every field of its event. -/
def HasFields (msg : Packet) : Prop :=
  (msg.type = srvAlloc → HasAllocFields msg.data) ∧ (msg.type = srvFree → 20 ≤ msg.data.length)

/-- The length of the name or of the callstack overflows. -/
def AllocOverflows (payload : List UInt8) : Prop :=
  20 ≤ payload.length ∧ (Overflows payload.length (payload.drop 20) ∨
    ∃ name ∈ stringField (payload.drop 20), Overflows payload.length name.2)

/-- The frame of an allocation, or what its variable held when it is missing. -/
def allocFrame (u : Uninit) (payload : List UInt8) : UInt64 :=
  (wordField 8 payload).elim u.uint64 fun p => .ofNat p.1

section Fields

open MemoryReader

variable {u : Uninit} {payload : List UInt8}

theorem MemoryReader.Skips.andThen {α β : Type} {r : MemoryReader} {a : ReadResult α}
    {b : MemoryReader → ReadResult β} {m n : ℕ} (ha : r.Skips a m)
    (hb : ∀ r' : MemoryReader, r'.Inside → r'.Skips (b r') n) (old : β) :
    r.Skips (a.andThen old b) (m + n) := by
  have hb := hb a.reader ha.behind.inside
  unfold ReadResult.andThen
  by_cases hle : m ≤ r.rest.length
  · obtain ⟨hok, hrest⟩ := ha.skipped hle
    rw [if_pos hok]
    have hlen : a.reader.rest.length = r.rest.length - m := by rw [hrest, List.length_drop]
    refine ⟨ha.behind.trans hb.behind, fun hle' => ?_, fun hlt => hb.missing (by omega)⟩
    obtain ⟨hok', hrest'⟩ := hb.skipped (by omega)
    exact ⟨hok', by rw [hrest', hrest, List.drop_drop]⟩
  · have hfalse := ha.missing (Nat.not_le.1 hle)
    rw [if_neg (by rw [hfalse]; decide)]
    exact ⟨ha.behind, fun hle' => by omega, fun _ => rfl⟩

theorem skips_readFixed {r : MemoryReader} (h : r.Inside) : r.Skips (readFixed u r) 20 :=
  ((h.finds_uint64 u.uint64).skips.andThen (fun _ h' => (h'.finds_uint64 u.uint64).skips)
    u.uint64).andThen (fun _ h' => (h'.finds_uint32 u.uint32).skips) u.uint32

/-- A read that fails leaves the variable as it was. -/
theorem value_readUint64 {r : MemoryReader} {value : UInt64} (h : (r.readUint64 value).ok = false) :
    (r.readUint64 value).value = value := by
  rw [readUint64_eq] at h ⊢
  unfold readAs at h ⊢
  cases hread : r.read 8 with
  | none => rfl
  | some p =>
    rw [hread] at h
    cases h

/-- The frame that is compared is the field, or what the variable held. -/
theorem value_allocFrame (hlen : payload.length < 2 ^ 63) :
    (readUint64 { storage := payload } u.uint64).value = allocFrame u payload := by
  have hfinds : Finds { storage := payload } (readUint64 { storage := payload } u.uint64)
      ((wordField 8 payload).map fun p => (UInt64.ofNat p.1, p.2)) :=
    (inside_start hlen).finds_uint64 u.uint64
  rw [allocFrame]
  cases hfield : wordField 8 payload with
  | none => exact value_readUint64 (hfinds.missing (by rw [hfield]; rfl))
  | some p => exact (hfinds.found (.ofNat p.1, p.2) (by rw [hfield]; rfl)).2.1

theorem outOfOrder_iff (d : Recorder) (hlen : payload.length < 2 ^ 63) :
    outOfOrder u d { storage := payload } = true ↔
      allocFrame u payload < d.prevFrame ∧ d.prevFrame ≠ Recorder.noFrame := by
  rw [outOfOrder, value_allocFrame hlen, Bool.and_eq_true, decide_eq_true_iff, bne_iff_ne]

theorem HasAllocFields.not_overflows (hlen : payload.length < 2 ^ 63)
    (h : HasAllocFields payload) : ¬AllocOverflows payload := by
  obtain ⟨-, hfields⟩ := h
  obtain ⟨callstack, hbind⟩ := Option.isSome_iff_exists.1 hfields
  obtain ⟨name, hname, hcallstack⟩ := Option.bind_eq_some_iff.1 hbind
  have hdrop : (payload.drop 20).length ≤ payload.length := by
    rw [List.length_drop]
    exact Nat.sub_le _ _
  rintro ⟨-, hover | ⟨name', hname', hover⟩⟩
  · exact not_overflows_of_stringField hlen hdrop hname hover
  · rw [Option.mem_def, hname, Option.some.injEq] at hname'
    rw [← hname'] at hover
    have hlt := length_of_stringField hname
    exact not_overflows_of_stringField hlen (by omega) hcallstack hover

/-- Two strings, one behind the other: an exception, or a result that says whether both are
there. -/
theorem readStrings_cases {r : MemoryReader} (h : r.Inside) {size : ℕ}
    (hsize : r.storage.length = size) :
    (r.stringCall = none ∨
          (r.readString []).ok = true ∧ (r.readString []).reader.stringCall = none) ∧
        (Overflows size r.rest ∨ ∃ name ∈ stringField r.rest, Overflows size name.2) ∨
      ¬(r.stringCall = none ∨
          (r.readString []).ok = true ∧ (r.readString []).reader.stringCall = none) ∧
        ¬(Overflows size r.rest ∨ ∃ name ∈ stringField r.rest, Overflows size name.2) ∧
        (((r.readString []).andThen [] (·.readString [])).ok = true ↔
          ((stringField r.rest).bind fun name => stringField name.2).isSome) := by
  subst hsize
  by_cases hover : Overflows r.storage.length r.rest
  · exact Or.inl ⟨Or.inl (h.stringCall_of_overflows hover), Or.inl hover⟩
  obtain ⟨hname, hcall, -⟩ := h.finds_string hover
  rw [hcall]
  generalize r.readString [] = name at hname
  cases hfield : stringField r.rest with
  | none =>
    have hfalse := hname.missing hfield
    right
    simp [ReadResult.andThen, hfalse, hover]
  | some field =>
    obtain ⟨hok, -, hrest⟩ := hname.found field hfield
    have hin := hname.behind.inside
    have hstorage := hname.behind.storage
    rw [ReadResult.andThen, if_pos hok, Option.bind_some]
    by_cases hover₂ : Overflows r.storage.length field.2
    · left
      have hthrows := hin.stringCall_of_overflows (by rwa [hstorage, hrest])
      exact ⟨Or.inr ⟨hok, hthrows⟩, Or.inr ⟨field, rfl, hover₂⟩⟩
    · right
      obtain ⟨hcallstack, hcall₂, -⟩ := hin.finds_string (by rwa [hstorage, hrest])
      rw [hrest] at hcallstack
      rw [hcall₂]
      refine ⟨by simp, by simp [hover, hover₂], ?_⟩
      cases hfield₂ : stringField field.2 with
      | none => simp [hcallstack.missing hfield₂]
      | some p => simp [(hcallstack.found p hfield₂).1]

/-- **The reads of an allocation.** -/
theorem readAlloc_cases (u : Uninit) (hlen : payload.length < 2 ^ 63) :
    allocThrows u { storage := payload } = true ∧ AllocOverflows payload ∨
      allocThrows u { storage := payload } = false ∧ ¬AllocOverflows payload ∧
        ((readAlloc u { storage := payload }).ok = true ↔ HasAllocFields payload) := by
  have hfixed := skips_readFixed (u := u) (inside_start hlen)
  have hreads : (readAlloc u { storage := payload }).ok =
      (((readFixed u { storage := payload }).andThen [] (·.readString [])).andThen []
        (·.readString [])).ok := rfl
  rw [hreads, allocThrows, AllocOverflows, HasAllocFields]
  by_cases h20 : 20 ≤ payload.length
  · obtain ⟨hok, hrest⟩ := hfixed.skipped h20
    have hstart : (readFixed u { storage := payload }).reader.rest = payload.drop 20 := hrest
    have hstrings := readStrings_cases hfixed.behind.inside
      (congrArg List.length hfixed.behind.storage)
    rw [hstart] at hstrings
    generalize readFixed u { storage := payload } = size at hok hstrings ⊢
    have hname : size.andThen [] (·.readString []) = size.reader.readString [] := if_pos hok
    rw [hname]
    simpa [hok, h20, Option.isSome_iff_ne_none] using hstrings
  · right
    have hfalse := hfixed.missing (Nat.not_le.1 h20)
    generalize readFixed u { storage := payload } = size at hfalse ⊢
    simp [ReadResult.andThen, hfalse, h20]

end Fields

/-! ### Rejected messages -/

namespace Recorder

/-- The last event in the buffer belongs to the current frame. -/
def Current (d : Recorder) : Prop := ∀ e ∈ d.frameEvents.getLast?, e.frame = d.prevFrame

theorem current_flush_addEvent (d : Recorder) (e : ProfilerEvent) :
    (d.addEvent e).flush.Current := by
  have hlast : (d.addEvent e).frameEvents.getLast? = some e := by
    rw [frameEvents_addEvent, List.getLast?_concat]
  intro x hx
  rw [prevFrame_flush, prevFrame_addEvent]
  rw [frameEvents_flush] at hx
  split_ifs at hx
  · cases hx
  · rw [hlast, Option.mem_some_iff] at hx
    rw [hx]

theorem Current.addEvents {d : Recorder} (h : d.Current) (es : List ProfilerEvent) :
    (d.addEvents es).Current := by
  induction es generalizing d with
  | nil => exact h
  | cons e es ih => exact ih (current_flush_addEvent d e)

theorem Current.submitLastEvents {d : Recorder} (h : d.Current) (htidy : d.Tidy) :
    d.submitLastEvents.Current := by
  unfold Recorder.submitLastEvents
  cases hd : d.frameEvents with
  | nil => exact h
  | cons x l =>
    show (d.trySaveEvents x.frame).Current
    by_cases hx : x.frame = d.prevFrame
    · rw [trySaveEvents, if_neg (not_not.2 hx)]
      exact h
    · have hprev : d.prevFrame ≠ Recorder.noFrame := by
        intro hprev
        have hmem : x ∈ d.frameEvents := by rw [hd]; exact List.mem_cons_self
        exact hx ((htidy.noFrame hprev x hmem).trans hprev.symm)
      intro e he
      rw [frameEvents_trySaveEvents, if_pos ⟨hx, hprev⟩] at he
      cases he

/-- An event that is received changes the buffer. -/
theorem Current.frameEvents_ne {d : Recorder} (h : d.Current) (e : ProfilerEvent) :
    (d.addEvent e).flush.frameEvents ≠ d.frameEvents := by
  rw [frameEvents_flush, frameEvents_addEvent, prevFrame_addEvent]
  by_cases hsaved : e.frame ≠ d.prevFrame ∧ d.prevFrame ≠ Recorder.noFrame
  · have hshort : ¬10000 < [e].length := by
      rw [List.length_singleton]
      decide
    rw [if_pos hsaved, List.nil_append, if_neg fun hlong => hshort hlong.1]
    intro hsame
    refine hsaved.1 (h e ?_)
    rw [← hsame]
    rfl
  · rw [if_neg hsaved]
    intro hsame
    have hlen := congrArg List.length hsame
    rw [apply_ite List.length, List.length_append, List.length_singleton] at hlen
    split_ifs at hlen with hlong
    · rw [List.length_nil] at hlen
      omega
    · omega

end Recorder

namespace Details

variable {u : Uninit} {d d' : Details}

theorem openData_buffer (d : Details) (file : Option Database) :
    (d.openData file).2.frameEvents = d.frameEvents ∧
      (d.openData file).2.prevFrame = d.prevFrame := by
  unfold Details.openData
  split_ifs
  · exact ⟨rfl, rfl⟩
  · cases file <;> exact ⟨rfl, rfl⟩

theorem current_poll (hcurrent : d.toRecorder.Current) (htidy : d.toRecorder.Tidy) :
    (d.poll u).toRecorder.Current := by
  unfold Details.poll
  cases d.readBuffer with
  | nil =>
    simp only
    split_ifs
    · exact hcurrent.submitLastEvents htidy
    · exact hcurrent
  | cons msg rest =>
    obtain ⟨-, hrec⟩ :=
      processMessage_frame u (d := { d with readBuffer := rest }) htidy.settled msg
    show ({ d with readBuffer := rest }.processMessage u msg).toRecorder.Current
    rw [hrec]
    exact hcurrent.addEvents _

/-- Only the message loop changes the buffer. -/
theorem step_of_ne_poll {a : Action} (ha : a ≠ .poll) (hstep : step u d a = some d') :
    d'.frameEvents = d.frameEvents ∧ d'.prevFrame = d.prevFrame := by
  cases a with
  | poll => exact absurd rfl ha
  | start faults | joinThread | closeDb =>
    rw [Details.step] at hstep
    split_ifs at hstep
    cases hstep
    exact ⟨rfl, rfl⟩
  | receive msg =>
    cases hstep
    unfold Details.receive
    split_ifs <;> exact ⟨rfl, rfl⟩
  | stop =>
    cases hstep
    split_ifs <;> exact ⟨rfl, rfl⟩
  | openData file =>
    cases hstep
    exact openData_buffer d file
  | saveDb =>
    cases hstep
    unfold Details.saveDb
    cases d.db with
    | none => exact ⟨rfl, rfl⟩
    | some st => exact openData_buffer d _
  | findObjectsReferences | pauseApp | resumeApp =>
    cases hstep
    exact ⟨rfl, rfl⟩

/-- **Every history.** -/
theorem current_of_reachable (h : Run.Reachable (step u) {} d) : d.toRecorder.Current := by
  have hboth : Between d ∧ d.toRecorder.Current := by
    refine Run.reachable_invariant (I := fun d => Between d ∧ d.toRecorder.Current)
      (fun d a d' hd hstep => ⟨hd.1.step hstep, ?_⟩) ⟨.initial, fun e he => ?_⟩ h
    · by_cases ha : a = .poll
      · rw [ha, step] at hstep
        split_ifs at hstep
        cases hstep
        exact current_poll hd.2 hd.1.tidy
      · obtain ⟨hevents, hprev⟩ := step_of_ne_poll ha hstep
        rw [Recorder.Current, hevents, hprev]
        exact hd.2
    · cases he
  exact hboth.2

end Details

/-- The buffer, the counters of the frame, the running total, the frame bounds and the database are
the same. -/
structure SameEventState (d d' : Recorder) : Prop where
  frameEvents : d'.frameEvents = d.frameEvents
  frameAllocs : d'.frameAllocs = d.frameAllocs
  frameFrees : d'.frameFrees = d.frameFrees
  sizeRunningTotal : d'.sizeRunningTotal = d.sizeRunningTotal
  hasMinFrame : d'.hasMinFrame = d.hasMinFrame
  minFrame : d'.minFrame = d.minFrame
  maxFrame : d'.maxFrame = d.maxFrame
  db : d'.db = d.db

theorem SameEventState.of_eq {d d' : Recorder} (h : d' = d) : SameEventState d d' := by
  rw [h]
  exact ⟨rfl, rfl, rfl, rfl, rfl, rfl, rfl, rfl⟩

/-- A message without all of its fields is rejected, and changes nothing. -/
def RejectsBroken (win32 : Bool) (u : Uninit) (d : Details) (msg : Packet) : Prop :=
  ¬HasFields msg →
    ∃ d', d.receiveMessage win32 u msg = some d' ∧ SameEventState d.toRecorder d'.toRecorder

/-- The lengths of an allocation do not overflow, and in the `WIN32` build nothing is missing or its
frame is not before the current one; of a deallocation, nothing is missing or already the frame
is. -/
def ChecksSuffice (win32 : Bool) (u : Uninit) (d : Recorder) (msg : Packet) : Prop :=
  (msg.type = srvAlloc → ¬AllocOverflows msg.data ∧ (win32 = true → HasAllocFields msg.data ∨
      d.prevFrame ≤ allocFrame u msg.data ∨ d.prevFrame = Recorder.noFrame)) ∧
    (msg.type = srvFree → msg.data.length < 8 ∨ 20 ≤ msg.data.length)

section Rejected

variable {win32 : Bool} {u : Uninit} {d : Details} {msg : Packet}

theorem rejectsBroken_alloc_iff (hd : d.toRecorder.Settled) (htype : msg.type = srvAlloc)
    (hlen : msg.data.length < 2 ^ 63) :
    RejectsBroken win32 u d msg ↔ ¬AllocOverflows msg.data ∧
      (win32 = true → HasAllocFields msg.data ∨
        d.prevFrame ≤ allocFrame u msg.data ∨ d.prevFrame = Recorder.noFrame) := by
  have hne : msg.type ≠ srvFree ∧ msg.type ≠ srvReferences := by
    rw [htype]
    decide
  have hfields : HasFields msg ↔ HasAllocFields msg.data :=
    ⟨fun h => h.1 htype, fun h => ⟨fun _ => h, fun hfree => absurd hfree hne.1⟩⟩
  have hbreak : (d.prevFrame ≤ allocFrame u msg.data ∨ d.prevFrame = Recorder.noFrame) ↔
      ¬outOfOrder u d.toRecorder { storage := msg.data } = true := by
    rw [outOfOrder_iff d.toRecorder hlen, not_and_or, not_not, UInt64.not_lt]
  rw [RejectsBroken, hfields, hbreak, Details.receiveMessage]
  rcases readAlloc_cases u hlen with ⟨hthrows, hover⟩ | ⟨hthrows, hover, hok⟩
  · refine iff_of_false ?_ fun h => h.1 hover
    intro hrejects
    obtain ⟨d', hd', -⟩ := hrejects fun hall => hall.not_overflows hlen hover
    rw [if_pos ⟨htype, hthrows⟩] at hd'
    cases hd'
  · rw [and_iff_right hover, if_neg (by rw [hthrows]; simp)]
    constructor
    · intro hrejects hwin
      by_contra hcon
      rw [not_or, not_not] at hcon
      obtain ⟨d', hd', -⟩ := hrejects hcon.1
      rw [if_pos ⟨htype, hwin, hcon.2⟩] at hd'
      cases hd'
    · intro hcond hbroken
      have hfalse : ¬(readAlloc u { storage := msg.data }).ok = true := fun h => hbroken (hok.1 h)
      refine ⟨d.flush, ?_, .of_eq hd.flush_eq⟩
      rw [if_neg fun h => (hcond h.2.1).elim hbroken fun hordered => hordered h.2.2, if_neg hne.2,
        Details.processMessage, if_pos htype, if_neg hfalse]

/-- The frame is there when there are eight bytes, and nothing else is asked for. -/
theorem rejectsBroken_free_iff (hd : d.toRecorder.Settled) (hcurrent : d.toRecorder.Current)
    (htype : msg.type = srvFree) (hlen : msg.data.length < 2 ^ 63) :
    RejectsBroken win32 u d msg ↔ msg.data.length < 8 ∨ 20 ≤ msg.data.length := by
  have hne : msg.type ≠ srvAlloc ∧ msg.type ≠ srvReferences := by
    rw [htype]
    decide
  have hfields : HasFields msg ↔ 20 ≤ msg.data.length :=
    ⟨fun h => h.2 htype, fun h => ⟨fun halloc => absurd halloc hne.1, fun _ => h⟩⟩
  have hframe := ((MemoryReader.inside_start hlen).finds_uint64 u.uint64).skips
  have hprocess : d.receiveMessage win32 u msg = some (d.processMessage u msg) := by
    rw [Details.receiveMessage, if_neg fun h => hne.1 h.1, if_neg fun h => hne.1 h.1, if_neg hne.2]
  rw [RejectsBroken, hfields, hprocess, Details.processMessage, if_neg hne.1, if_pos htype]
  by_cases h8 : 8 ≤ msg.data.length
  · have hok : (readFree u { storage := msg.data }).frame.ok = true := (hframe.skipped h8).1
    simp only [hok, if_true]
    constructor
    · intro hrejects
      by_contra hcut
      obtain ⟨d', hd', hsame⟩ := hrejects fun h20 => hcut (Or.inr h20)
      cases hd'
      exact hcurrent.frameEvents_ne _ hsame.frameEvents
    · intro hcond hbroken
      omega
  · have hfalse : (readFree u { storage := msg.data }).frame.ok = false :=
      hframe.missing (Nat.not_le.1 h8)
    refine iff_of_true (fun _ => ⟨d.flush, ?_, .of_eq hd.flush_eq⟩) (Or.inl (Nat.not_le.1 h8))
    simp only [hfalse, Bool.false_eq_true, if_false]

/-- **Broken events change nothing** exactly when the checks suffice. -/
theorem rejectsBroken_iff (hd : Run.Reachable (Details.step u) {} d)
    (htype : msg.type = srvAlloc ∨ msg.type = srvFree) (hlen : msg.data.length < 2 ^ 63) :
    RejectsBroken win32 u d msg ↔ ChecksSuffice win32 u d.toRecorder msg := by
  have hsettled := (Details.between_of_reachable hd).tidy.settled
  rw [ChecksSuffice]
  rcases htype with htype | htype
  · rw [rejectsBroken_alloc_iff hsettled htype hlen, htype]
    simp [srvAlloc, srvFree]
  · rw [rejectsBroken_free_iff hsettled (Details.current_of_reachable hd) htype hlen, htype]
    simp [srvAlloc, srvFree]

/-- An allocation that ends in its size. -/
theorem rejectsBroken_iff_cutAlloc :
    RejectsBroken true ⟨1, 2, 3⟩ freshClient ⟨srvAlloc, List.replicate 19 0⟩ ↔
      ChecksSuffice true ⟨1, 2, 3⟩ freshClient.toRecorder ⟨srvAlloc, List.replicate 19 0⟩ :=
  rejectsBroken_iff ⟨[.start []], rfl⟩ (Or.inl rfl) (by decide)

/-- A deallocation that ends behind its frame is recorded, with what the variables held. -/
theorem cutFree_recorded :
    Run.Reachable (Details.step ⟨1, 2, 3⟩) {} freshClient ∧
    ((freshClient.receiveMessage false ⟨1, 2, 3⟩ ⟨srvFree, List.replicate 8 0⟩).map fun d =>
      d.frameEvents) = some [⟨.free, 0, 3, 2, [], []⟩] ∧
    ¬RejectsBroken false ⟨1, 2, 3⟩ freshClient ⟨srvFree, List.replicate 8 0⟩ := by
  have hevents : ((freshClient.receiveMessage false ⟨1, 2, 3⟩
      ⟨srvFree, List.replicate 8 0⟩).map fun d => d.frameEvents) =
        some [⟨.free, 0, 3, 2, [], []⟩] := by decide
  refine ⟨⟨[.start []], rfl⟩, hevents, fun hrejects => ?_⟩
  obtain ⟨d', hd', hsame⟩ := hrejects fun hfields => absurd (hfields.2 rfl) (by decide)
  rw [hd', Option.map_some, Option.some.injEq, hsame.frameEvents] at hevents
  cases hevents

end Rejected

end Owlcat
