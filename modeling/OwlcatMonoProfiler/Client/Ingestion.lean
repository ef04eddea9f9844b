import OwlcatMonoProfiler.Client.Recording
import OwlcatMonoProfiler.Library.Blocks
import OwlcatMonoProfiler.Network.RoundTrip

/-!
# What the client makes of a stream of events

The invariant of the message loop over the events `es` received so far.

* `statsOf es f`: the statistics of the last block of frame `f`, with the running total at its end;
* `Buffered`: the rows of the database and the buffer are the events received, counters and running
  total count them, and all frames but the current one have their statistics;
* `Ingested`: what holds between two messages.  The buffer never exceeds `10000` events, and when it
  is empty, the current frame has its statistics, too;
* `Ingested.addEvent`, `Ingested.addEvents`: one event, and a sequence of events.
-/

namespace Owlcat

open Blocks Protocol

namespace ProfilerEvent

/-- What an event adds to the allocated memory. -/
def signedSize (e : ProfilerEvent) : ℤ :=
  match e.type with
  | .alloc => e.size.toNat
  | .free => -e.size.toNat

/-- The memory a sequence of events leaves allocated. -/
def netSize (es : List ProfilerEvent) : ℤ := (es.map signedSize).sum

def allocCount (es : List ProfilerEvent) : ℕ := es.countP fun e => e.type = .alloc

def freeCount (es : List ProfilerEvent) : ℕ := es.countP fun e => e.type = .free

theorem netSize_append (es es' : List ProfilerEvent) :
    netSize (es ++ es') = netSize es + netSize es' := by
  simp [netSize]

theorem allocCount_append (es es' : List ProfilerEvent) :
    allocCount (es ++ es') = allocCount es + allocCount es' :=
  List.countP_append

theorem freeCount_append (es es' : List ProfilerEvent) :
    freeCount (es ++ es') = freeCount es + freeCount es' :=
  List.countP_append

/-- The statistics of the last block of a frame. -/
def statsOf (es : List ProfilerEvent) (f : UInt64) : StatsRow :=
  ⟨Int64.ofNat (allocCount (lastBlock frame f es)), Int64.ofNat (freeCount (lastBlock frame f es)),
    Int64.ofInt (netSize (through frame f es))⟩

/-- The statistics of a frame, if it has events. -/
def statsOf? (es : List ProfilerEvent) (f : UInt64) : Option StatsRow :=
  if f ∈ es.map frame then some (statsOf es f) else none

theorem statsOf_append_other {es : List ProfilerEvent} {e : ProfilerEvent} {f : UInt64}
    (h : e.frame ≠ f) : statsOf (es ++ [e]) f = statsOf es f := by
  rw [statsOf, statsOf, lastBlock_append_other h, through_append_other h]

theorem statsOf?_append_other {es : List ProfilerEvent} {e : ProfilerEvent} {f : UInt64}
    (h : e.frame ≠ f) : statsOf? (es ++ [e]) f = statsOf? es f := by
  rw [statsOf?, statsOf?, statsOf_append_other h]
  simp [h.symm]

/-- The events of the current frame, before an event of frame `f`. -/
def block (es : List ProfilerEvent) (f : UInt64) : List ProfilerEvent :=
  if lastKey frame es = some f then trailing frame es else []

theorem trailing_append_block (es : List ProfilerEvent) (e : ProfilerEvent) :
    trailing frame (es ++ [e]) = block es e.frame ++ [e] := by
  unfold block
  split_ifs with h
  · exact trailing_append_of_lastKey h
  · exact trailing_append_of_lastKey_ne h

end ProfilerEvent

open ProfilerEvent

/-- Database, buffer and counters after the events `es`, of which `saved` are in the database. -/
structure Buffered (d : Recorder) (db : Database) (saved es : List ProfilerEvent) : Prop where
  opened : d.db = some { db := db }
  recorded : Recorded d.types d.callstacks db saved
  events : es = saved ++ d.frameEvents
  prevFrame : d.prevFrame = (lastKey frame es).getD Recorder.noFrame
  allocs : d.frameAllocs = UInt64.ofNat (allocCount (trailing frame es))
  frees : d.frameFrees = UInt64.ofNat (freeCount (trailing frame es))
  total : d.sizeRunningTotal = Int64.ofInt (netSize es)
  stats : ∀ f, lastKey frame es ≠ some f →
    db.frameStats.lookup (DbValue.uint64 f).bind = statsOf? es f
  hasMinFrame : d.hasMinFrame = !es.isEmpty
  minFrame : ∀ e ∈ es.head?, d.minFrame = e.frame

/-- What holds after each of the messages. -/
structure Ingested (d : Recorder) (db : Database) (saved es : List ProfilerEvent) : Prop extends
    Buffered d db saved es where
  length : d.frameEvents.length = (trailing frame es).length % 10001
  last : d.frameEvents = [] → ∀ f, lastKey frame es = some f →
    db.frameStats.lookup (DbValue.uint64 f).bind = statsOf? es f

/-- No event has the frame that stands for no frame. -/
def NoSentinel (es : List ProfilerEvent) : Prop := ∀ e ∈ es, e.frame ≠ Recorder.noFrame

instance (es : List ProfilerEvent) : Decidable (NoSentinel es) :=
  inferInstanceAs (Decidable (∀ e ∈ es, e.frame ≠ Recorder.noFrame))

theorem Ingested.start {d : Recorder} (hdb : d.db = some {}) (htypes : d.types = {})
    (hcallstacks : d.callstacks = {}) (hevents : d.frameEvents = [])
    (hprev : d.prevFrame = Recorder.noFrame) (hallocs : d.frameAllocs = 0)
    (hfrees : d.frameFrees = 0) (htotal : d.sizeRunningTotal = 0) (hmin : d.hasMinFrame = false) :
    Ingested d {} [] [] where
  opened := hdb
  recorded := by rw [htypes, hcallstacks]; exact .nil
  events := by rw [hevents]; rfl
  prevFrame := hprev
  allocs := hallocs
  frees := hfrees
  total := htotal
  stats := fun f _ => rfl
  hasMinFrame := hmin
  minFrame := by simp
  length := by rw [hevents]; rfl
  last := by simp

namespace Buffered

variable {d : Recorder} {db : Database} {saved es : List ProfilerEvent}

/-- Saving the buffer: afterwards every frame has its statistics. -/
theorem saveFrameEvents (h : Buffered d db saved es) (hes : es ≠ []) (hno : NoSentinel es) :
    ∃ db' types callstacks,
      d.saveFrameEvents = d.clearFrameEvents.record { db := db' } types callstacks ∧
      Recorded types callstacks db' es ∧
      ∀ f, db'.frameStats.lookup (DbValue.uint64 f).bind = statsOf? es f := by
  obtain ⟨l, e, rfl⟩ : ∃ l e, es = l ++ [e] := ⟨_, _, (List.dropLast_append_getLast hes).symm⟩
  have hprev : d.prevFrame = e.frame := by rw [h.prevFrame, lastKey_append, Option.getD_some]
  have hframe : d.prevFrame ≠ Recorder.noFrame := hprev ▸ hno e (by simp)
  obtain ⟨db', types, callstacks, heq, hrec, hstats⟩ :=
    Recorder.saveFrameEvents_spec h.opened h.recorded hframe
  rw [← h.events] at hrec
  refine ⟨db', types, callstacks, heq, hrec, fun f => ?_⟩
  rw [hstats, hprev]
  by_cases hf : f = e.frame
  · subst hf
    rw [AList.lookup_insert, statsOf?, if_pos (by simp), statsOf, ← trailing_append,
      through_append_self rfl, Recorder.currentStats, h.allocs, h.frees, h.total,
      bind_uint64_ofNat, bind_uint64_ofNat]
    rfl
  · rw [AList.lookup_insert_ne fun hbind => hf (bind_uint64_inj hbind)]
    refine h.stats f fun hlast => hf ?_
    rw [lastKey_append, Option.some.injEq] at hlast
    exact hlast.symm

end Buffered

/-- The client is about to receive an event of frame `frame`. -/
structure Ready (d : Recorder) (db : Database) (saved es : List ProfilerEvent) (frame : UInt64) :
    Prop where
  opened : d.db = some { db := db }
  recorded : Recorded d.types d.callstacks db saved
  events : es = saved ++ d.frameEvents
  prevFrame : d.prevFrame = frame
  allocs : d.frameAllocs = UInt64.ofNat (allocCount (block es frame))
  frees : d.frameFrees = UInt64.ofNat (freeCount (block es frame))
  total : d.sizeRunningTotal = Int64.ofInt (netSize es)
  stats : ∀ f, f ≠ frame → db.frameStats.lookup (DbValue.uint64 f).bind = statsOf? es f
  hasMinFrame : d.hasMinFrame = true
  minFrame : d.minFrame = (es.head?.map ProfilerEvent.frame).getD frame
  length : d.frameEvents.length = (block es frame).length % 10001

namespace Ingested

variable {d : Recorder} {db : Database} {saved es : List ProfilerEvent}

theorem trySaveEvents (h : Ingested d db saved es) (hno : NoSentinel es) {frame : UInt64}
    (hframe : frame ≠ Recorder.noFrame) :
    ∃ db' saved', Ready (d.trySaveEvents frame) db' saved' es frame := by
  by_cases hsame : lastKey ProfilerEvent.frame es = some frame
  · -- the frame goes on
    have hprev : d.prevFrame = frame := by rw [h.prevFrame, hsame, Option.getD_some]
    have hblock : block es frame = trailing ProfilerEvent.frame es := if_pos hsame
    obtain ⟨l, e, rfl, -⟩ := lastKey_eq_some _ hsame
    have hmin : d.minFrame = ((l ++ [e]).head?.map ProfilerEvent.frame).getD frame := by
      cases hl : (l ++ [e]).head? with
      | none => simp at hl
      | some x => exact h.minFrame x hl
    refine ⟨db, saved, ?_⟩
    rw [Recorder.trySaveEvents, if_neg (by simp [hprev])]
    exact ⟨h.opened, h.recorded, h.events, hprev, hblock ▸ h.allocs, hblock ▸ h.frees, h.total,
      fun f hf => h.stats f (by simpa [hsame] using Ne.symm hf), by simp [h.hasMinFrame], hmin,
      hblock ▸ h.length⟩
  · have hblock : block es frame = [] := if_neg hsame
    have hprev : frame ≠ d.prevFrame := by
      rw [h.prevFrame]
      cases hlast : lastKey ProfilerEvent.frame es with
      | none => exact hframe
      | some f => exact fun e => hsame (by rw [hlast, e, Option.getD_some])
    rw [Recorder.trySaveEvents, if_pos hprev]
    rcases eq_or_ne es [] with rfl | hes
    · -- the first event
      have hnone : (d.updateFrameBounds frame).prevFrame = Recorder.noFrame := h.prevFrame
      have hmin : d.hasMinFrame = false := h.hasMinFrame
      rw [Recorder.saveFrameEvents, if_pos hnone]
      refine ⟨db, saved, h.opened, h.recorded, h.events, rfl, ?_, ?_, h.total,
        fun f _ => h.stats f (by simp), rfl, if_neg (by simp [hmin]), ?_⟩
      all_goals rw [hblock]
      · rfl
      · rfl
      · exact h.length
    · -- the events of the frame that ends are saved
      have hbuf : Buffered (d.updateFrameBounds frame) db saved es :=
        ⟨h.opened, h.recorded, h.events, h.prevFrame, h.allocs, h.frees, h.total, h.stats,
          by cases es <;> simp_all [Recorder.updateFrameBounds], fun e he => by
            have hmin : d.hasMinFrame = true := by simp [h.hasMinFrame, hes]
            exact (if_pos hmin).trans (h.minFrame e he)⟩
      obtain ⟨db', types, callstacks, heq, hrec, hstats⟩ := hbuf.saveFrameEvents hes hno
      rw [heq]
      refine ⟨db', es, rfl, hrec, (List.append_nil es).symm, rfl, by rw [hblock]; rfl,
        by rw [hblock]; rfl, h.total, fun f _ => hstats f, rfl, ?_, by rw [hblock]; rfl⟩
      cases hl : es.head? with
      | none => simp_all
      | some x => exact hbuf.minFrame x hl

end Ingested

theorem toInt64_toUInt64_size (size : UInt32) :
    size.toUInt64.toInt64 = Int64.ofInt size.toNat := by
  rw [← UInt64.ofNat_uInt32ToNat, UInt64.toInt64_ofNat']
  rfl

namespace Ready

variable {d : Recorder} {db : Database} {saved es : List ProfilerEvent} {e : ProfilerEvent}

theorem frameEvents_pushEvent (d : Recorder) (e : ProfilerEvent) :
    (d.pushEvent e).frameEvents = d.frameEvents ++ [e] := by
  unfold Recorder.pushEvent
  cases e.type <;> rfl

/-- The event is put into the buffer and counted. -/
theorem pushEvent (h : Ready d db saved es e.frame) :
    Buffered (d.pushEvent e) db saved (es ++ [e]) := by
  have htrailing := trailing_append_block es e
  have hevents : es ++ [e] = saved ++ (d.pushEvent e).frameEvents := by
    rw [frameEvents_pushEvent, ← List.append_assoc, ← h.events]
  have hlast : d.prevFrame = (lastKey frame (es ++ [e])).getD Recorder.noFrame := by
    rw [lastKey_append, Option.getD_some, h.prevFrame]
  have hstats : ∀ f, lastKey frame (es ++ [e]) ≠ some f →
      db.frameStats.lookup (DbValue.uint64 f).bind = statsOf? (es ++ [e]) f := by
    intro f hf
    have hne : e.frame ≠ f := fun he => hf (by rw [lastKey_append, he])
    rw [statsOf?_append_other hne, h.stats f hne.symm]
  have hmin : d.hasMinFrame = !(es ++ [e]).isEmpty := by simp [h.hasMinFrame]
  have hminFrame : ∀ x ∈ (es ++ [e]).head?, d.minFrame = x.frame := by
    intro x hx
    rw [h.minFrame]
    cases es with
    | nil => rw [Option.mem_some.1 hx]; rfl
    | cons y es => rw [Option.mem_some.1 hx]; rfl
  cases he : e.type with
  | alloc =>
    have hpush : d.pushEvent e = { d with
        frameEvents := d.frameEvents ++ [e]
        frameAllocs := d.frameAllocs + 1
        sizeRunningTotal := d.sizeRunningTotal + e.size.toUInt64.toInt64 } := by
      simp only [Recorder.pushEvent, he]
    have hallocs : allocCount [e] = 1 := by simp [allocCount, he]
    have hfrees : freeCount [e] = 0 := by simp [freeCount, he]
    have hsize : netSize [e] = e.size.toNat := by simp [netSize, signedSize, he]
    rw [hpush] at hevents ⊢
    refine ⟨h.opened, h.recorded, hevents, hlast, ?_, ?_, ?_, hstats, hmin, hminFrame⟩
    · rw [htrailing, allocCount_append, hallocs, UInt64.ofNat_add, ← h.allocs]
      rfl
    · rw [htrailing, freeCount_append, hfrees, Nat.add_zero, ← h.frees]
    · rw [netSize_append, hsize, Int64.ofInt_add, ← h.total, ← toInt64_toUInt64_size]
  | free =>
    have hpush : d.pushEvent e = { d with
        frameEvents := d.frameEvents ++ [e]
        frameFrees := d.frameFrees + 1
        sizeRunningTotal := d.sizeRunningTotal - e.size.toUInt64.toInt64 } := by
      simp only [Recorder.pushEvent, he]
    have hallocs : allocCount [e] = 0 := by simp [allocCount, he]
    have hfrees : freeCount [e] = 1 := by simp [freeCount, he]
    have hsize : netSize [e] = -e.size.toNat := by simp [netSize, signedSize, he]
    rw [hpush] at hevents ⊢
    refine ⟨h.opened, h.recorded, hevents, hlast, ?_, ?_, ?_, hstats, hmin, hminFrame⟩
    · rw [htrailing, allocCount_append, hallocs, Nat.add_zero, ← h.allocs]
    · rw [htrailing, freeCount_append, hfrees, UInt64.ofNat_add, ← h.frees]
      rfl
    · rw [netSize_append, hsize, ← sub_eq_add_neg, Int64.ofInt_sub, ← h.total,
        ← toInt64_toUInt64_size]

end Ready

namespace Ingested

variable {d : Recorder} {db : Database} {saved es : List ProfilerEvent}

/-- **One event.** -/
theorem addEvent (h : Ingested d db saved es) (hno : NoSentinel es) {e : ProfilerEvent}
    (he : e.frame ≠ Recorder.noFrame) :
    ∃ db' saved', Ingested (d.addEvent e).flush db' saved' (es ++ [e]) := by
  obtain ⟨db₁, saved₁, hready⟩ := h.trySaveEvents hno he
  have hbuf := hready.pushEvent
  have hlen : (d.addEvent e).frameEvents.length = (block es e.frame).length % 10001 + 1 := by
    rw [Recorder.addEvent, Ready.frameEvents_pushEvent, List.length_append, hready.length]
    rfl
  have htrailing : (trailing frame (es ++ [e])).length = (block es e.frame).length + 1 := by
    rw [trailing_append_block, List.length_append]
    rfl
  -- a long frame is saved in parts, each with the statistics of the frame so far
  by_cases hflush : (d.addEvent e).frameEvents.length > 10000
  · rw [Recorder.flush, if_pos hflush]
    have hno' : NoSentinel (es ++ [e]) := by
      intro x hx
      rcases List.mem_append.1 hx with hx | hx
      · exact hno x hx
      · rw [List.mem_singleton.1 hx]
        exact he
    obtain ⟨db', types, callstacks, heq, hrec, hstats⟩ := hbuf.saveFrameEvents (by simp) hno'
    refine ⟨db', es ++ [e], ?_⟩
    rw [Recorder.addEvent, heq]
    refine { hbuf with
      opened := rfl
      recorded := hrec
      events := (List.append_nil _).symm
      stats := fun f _ => hstats f
      length := ?_
      last := fun _ f _ => hstats f }
    change 0 = _
    omega
  · rw [Recorder.flush, if_neg hflush]
    refine ⟨db₁, saved₁, { hbuf with length := by omega, last := fun hnil => ?_ }⟩
    rw [Recorder.addEvent, Ready.frameEvents_pushEvent] at hnil
    simp at hnil

end Ingested

/-! ### Messages -/

/-- What the reads of the message of an event return. -/
def ProfilerEvent.received (e : ProfilerEvent) : Received :=
  match e.type with
  | .alloc => .alloc ⟨e.frame, e.addr, e.size, e.objType, e.callstack⟩
  | .free => .free e.frame e.addr e.size

/-- A well-formed `SRV_ALLOC` or `SRV_FREE` message: all of its reads succeed, and return the fields
of the event. -/
def Carries (msg : Packet) (e : ProfilerEvent) : Prop :=
  (e.type = .free → e.objType = [] ∧ e.callstack = []) ∧
    ∀ u, ∃ r, readReport u msg = some ⟨true, e.received, r⟩

/-- The event a message adds to the buffer. -/
def decodeEvent (u : Uninit) (msg : Packet) : Option ProfilerEvent :=
  if msg.type = srvAlloc then
    let fields := readAlloc u { storage := msg.data }
    if fields.ok then
      some ⟨.alloc, fields.value.frame, fields.value.addr, fields.value.size, fields.value.name,
        fields.value.callstack⟩
    else none
  else if msg.type = srvFree then
    let reads := readFree u { storage := msg.data }
    if reads.frame.ok then
      some ⟨.free, reads.frame.value, reads.addr.value, reads.size.value, [], []⟩
    else none
  else none

/-- The events of a sequence of messages. -/
def decodeEvents (u : Uninit) (msgs : List Packet) : List ProfilerEvent :=
  msgs.filterMap (decodeEvent u)

theorem decodeEvents_append (u : Uninit) (msgs msgs' : List Packet) :
    decodeEvents u (msgs ++ msgs') = decodeEvents u msgs ++ decodeEvents u msgs' :=
  List.filterMap_append

theorem decodeEvents_singleton (u : Uninit) (msg : Packet) :
    decodeEvents u [msg] = (decodeEvent u msg).toList := by
  unfold decodeEvents
  cases h : decodeEvent u msg <;> simp [h]

theorem decodeEvent_of_carries {msg : Packet} {e : ProfilerEvent} (h : Carries msg e) (u : Uninit) :
    decodeEvent u msg = some e := by
  obtain ⟨hfree, hread⟩ := h
  obtain ⟨r, hr⟩ := hread u
  obtain ⟨type, frame, addr, size, objType, callstack⟩ := e
  unfold readReport at hr
  unfold decodeEvent
  cases type with
  | alloc =>
    simp only [ProfilerEvent.received] at hr
    split_ifs at hr with h1 h2 h3 h4 h5
    · simp only [Option.some.injEq, ReadResult.mk.injEq, Received.alloc.injEq] at hr
      obtain ⟨hok, hfields, -⟩ := hr
      rw [if_pos h1]
      simp only [hok, hfields, if_true]
    all_goals simp at hr
  | free =>
    obtain ⟨rfl, rfl⟩ := hfree rfl
    simp only [ProfilerEvent.received] at hr
    split_ifs at hr with h1 h2 h3 h4 h5
    · simp at hr
    · simp only [Option.some.injEq, ReadResult.mk.injEq, Received.free.injEq, Bool.and_eq_true]
        at hr
      obtain ⟨⟨⟨hframe, -⟩, -⟩, ⟨h6, h7, h8⟩, -⟩ := hr
      rw [if_neg h1, if_pos h2]
      simp only [hframe, h6, h7, h8, if_true]
    all_goals simp at hr

theorem decodeEvents_of_carries {msgs : List Packet} {es : List ProfilerEvent}
    (h : List.Forall₂ Carries msgs es) (u : Uninit) : decodeEvents u msgs = es := by
  induction h with
  | nil => rfl
  | @cons msg e msgs es hmsg _ ih =>
    rw [decodeEvents, List.filterMap_cons, decodeEvent_of_carries hmsg u]
    exact congrArg (e :: ·) ih

/-- The events are received one after the other. -/
def Recorder.addEvents (d : Recorder) (es : List ProfilerEvent) : Recorder :=
  es.foldl (fun d e => (d.addEvent e).flush) d

namespace Details

variable {u : Uninit} {d : Details}

/-- A message with an event puts it into the buffer. -/
theorem processMessage_of_decodeEvent {msg : Packet} {e : ProfilerEvent}
    (h : decodeEvent u msg = some e) : d.processMessage u msg = (d.addEvent e).flush := by
  unfold decodeEvent at h
  unfold processMessage
  simp only at h ⊢
  split_ifs at h with h1 h2 h3 h4
  · cases h
    rw [if_pos h1, if_pos h2]
  · cases h
    rw [if_neg h1, if_pos h3, if_pos h4]

/-- The messages are processed one after the other. -/
def processMessages (u : Uninit) (d : Details) (msgs : List Packet) : Details :=
  msgs.foldl (processMessage u) d

theorem processMessages_of_carries {msgs : List Packet} {es : List ProfilerEvent}
    (h : List.Forall₂ Carries msgs es) :
    d.processMessages u msgs = { d with toRecorder := d.toRecorder.addEvents es } := by
  induction h generalizing d with
  | nil => rfl
  | @cons msg e msgs es hmsg _ ih =>
    have hstep : d.processMessages u (msg :: msgs) =
        ((d.addEvent e).flush).processMessages u msgs := by
      rw [processMessages, List.foldl_cons,
        processMessage_of_decodeEvent (decodeEvent_of_carries hmsg u)]
      rfl
    rw [hstep, ih]
    rfl

end Details

/-- **A sequence of events.** -/
theorem Ingested.addEvents {d : Recorder} {db : Database} {saved es : List ProfilerEvent}
    (h : Ingested d db saved es) {new : List ProfilerEvent} (hno : NoSentinel (es ++ new)) :
    ∃ db' saved', Ingested (d.addEvents new) db' saved' (es ++ new) := by
  induction new generalizing d db saved es with
  | nil => exact ⟨db, saved, by simpa [Recorder.addEvents] using h⟩
  | cons e new ih =>
    have hes : NoSentinel es := fun x hx => hno x (by simp [hx])
    obtain ⟨db₁, saved₁, h1⟩ := h.addEvent hes (hno e (by simp))
    rw [List.append_cons] at hno ⊢
    exact ih h1 hno

/-- A client that was just constructed and started. -/
def freshClient : Details := ({} : Details).start []

theorem ingested_freshClient {es : List ProfilerEvent} (hno : NoSentinel es) :
    ∃ db saved, Ingested (freshClient.toRecorder.addEvents es) db saved es := by
  have h : Ingested freshClient.toRecorder {} [] [] := .start rfl rfl rfl rfl rfl rfl rfl rfl rfl
  exact h.addEvents hno

/-! ### Rows and events -/

/-- A row of `ProfilerEvents` read back is the event; ids are those of the maps. -/
structure Represents (types callstacks : Interner) (row : EventRow) (e : ProfilerEvent) : Prop where
  eventTypeId : row.eventTypeId = if e.type = .alloc then 1 else 2
  frame : getUint64 (some row.frame) = e.frame
  addr : getUint64 (some row.address) = e.addr
  size : getUint64 (some row.size) = e.size.toUInt64
  typeId : if e.type = .alloc then
      ∃ id, types.toId.lookup e.objType = some id ∧ row.typeId = some (DbValue.uint64 id).bind
    else row.typeId = none
  callstackId : if e.type = .alloc then
      ∃ id, callstacks.toId.lookup e.callstack = some id ∧
        row.callstackId = some (DbValue.uint64 id).bind
    else row.callstackId = none

/-- The size of a free event is bound as an `int`. -/
def FitsInt (e : ProfilerEvent) : Prop := e.type = .free → e.size < 0x80000000

instance (e : ProfilerEvent) : Decidable (FitsInt e) :=
  inferInstanceAs (Decidable (_ → _))

theorem represents_storedRow {types callstacks : Interner} {e : ProfilerEvent}
    (h : Known types callstacks e) :
    Represents types callstacks (storedRow types callstacks e) e ↔ FitsInt e := by
  cases he : e.type with
  | alloc =>
    obtain ⟨typeId, htype⟩ := Dict.mem_iff_lookup.1 (h he).1
    obtain ⟨callstackId, hcallstack⟩ := Dict.mem_iff_lookup.1 (h he).2
    refine iff_of_true ⟨?_, ?_, ?_, ?_, ?_, ?_⟩ fun hfree => by rw [he] at hfree; cases hfree
    all_goals simp [storedRow, he, htype, hcallstack]
  | free =>
    have hsize : (storedRow types callstacks e).size = (DbValue.uint32 e.size).bind := by
      simp only [storedRow, he]
    constructor
    · intro hrow _
      rw [← getUint64_bind_uint32, ← hsize]
      exact hrow.size
    · intro hfits
      have hstored : getUint64 (some (storedRow types callstacks e).size) = e.size.toUInt64 := by
        rw [hsize]
        exact (getUint64_bind_uint32 e.size).2 (hfits he)
      refine ⟨?_, ?_, ?_, hstored, ?_, ?_⟩
      all_goals simp [storedRow, he]

/-- The rows of a list of known events represent them when the sizes fit. -/
theorem Recorded.represents_iff {types callstacks : Interner} {db : Database}
    {es : List ProfilerEvent} (h : Recorded types callstacks db es) :
    List.Forall₂ (Represents types callstacks) db.profilerEvents es ↔ ∀ e ∈ es, FitsInt e := by
  rw [h.events, List.forall₂_map_left_iff, List.forall₂_same]
  exact forall₂_congr fun e he => represents_storedRow (h.known e he)

/-! ### After every message -/

/-- The events that are in the database after the events `es`: what is left of the current frame
after its full buffers were flushed is not. -/
def storedPart (es : List ProfilerEvent) : List ProfilerEvent :=
  es.take (es.length - (trailing frame es).length % 10001)

theorem Ingested.saved_eq {d : Recorder} {db : Database} {saved es : List ProfilerEvent}
    (h : Ingested d db saved es) : saved = storedPart es := by
  have hlen := congrArg List.length h.events
  rw [List.length_append, h.length] at hlen
  have hsaved : es.length - (trailing frame es).length % 10001 = saved.length := by omega
  rw [storedPart, hsaved, h.events, List.take_left]

/-- The statistics of a frame, over all of its events. -/
def frameStats (es : List ProfilerEvent) (f : UInt64) : StatsRow :=
  ⟨Int64.ofNat (allocCount (es.filter fun e => e.frame = f)),
    Int64.ofNat (freeCount (es.filter fun e => e.frame = f)),
    Int64.ofInt (netSize (es.filter fun e => e.frame ≤ f))⟩

/-- Stored rows and buffer are the events received, and every frame below the current one has its
statistics if it has events, and no row otherwise. -/
def IngestionInvariant (d : Recorder) (es : List ProfilerEvent) : Prop :=
  ∃ db, d.db = some { db := db } ∧
    (∃ saved, List.Forall₂ (Represents d.types d.callstacks) db.profilerEvents saved ∧
      saved ++ d.frameEvents = es) ∧
    ∀ f < d.prevFrame, db.frameStats.lookup (DbValue.uint64 f).bind =
      if f ∈ es.map frame then some (frameStats es f) else none

/-- Frames that never go backwards. -/
def Sequential (es : List ProfilerEvent) : Prop := es.Pairwise fun x y => x.frame ≤ y.frame

instance (es : List ProfilerEvent) : Decidable (Sequential es) :=
  inferInstanceAs (Decidable (es.Pairwise fun x y => x.frame ≤ y.frame))

theorem statsOf_eq_frameStats {es : List ProfilerEvent} (h : Sequential es) {f : UInt64}
    (hf : f ∈ es.map frame) : statsOf es f = frameStats es f := by
  rw [statsOf, frameStats, lastBlock_eq_filter h, through_eq_filter h (List.mem_map.1 hf)]

theorem Ingested.invariant_iff {d : Recorder} {db : Database} {saved es : List ProfilerEvent}
    (h : Ingested d db saved es) (hseq : Sequential es) :
    IngestionInvariant d es ↔ ∀ e ∈ storedPart es, FitsInt e := by
  rw [← h.saved_eq, ← h.recorded.represents_iff]
  constructor
  · rintro ⟨db', hdb', ⟨saved', hrows, hevents⟩, -⟩
    obtain rfl : db = db' := by
      have := h.opened.symm.trans hdb'
      simpa using this
    obtain rfl : saved' = saved := List.append_cancel_right (hevents.trans h.events)
    exact hrows
  · intro hrows
    refine ⟨db, h.opened, ⟨saved, hrows, h.events.symm⟩, fun f hf => ?_⟩
    have hlast : lastKey frame es ≠ some f := fun hlast => by
      rw [h.prevFrame, hlast, Option.getD_some] at hf
      exact UInt64.lt_irrefl f hf
    rw [h.stats f hlast, statsOf?]
    split_ifs with hmem
    · rw [statsOf_eq_frameStats hseq hmem]
    · rfl

/-- The messages of the server's allocations and frees. -/
def Report.profilerEvent : Report → Option ProfilerEvent
  | .alloc frame addr size fullName callstack =>
    some ⟨.alloc, frame, addr, size, fullName.bytes, callstack.bytes⟩
  | .free frame addr size => some ⟨.free, frame, addr, size, [], []⟩
  | _ => none

/-- What the server sends is well formed. -/
theorem carries_reportPacket {report : Report} {e : ProfilerEvent}
    (h : report.profilerEvent = some e) (hlen : (reportPacket report).data.length < 2 ^ 64) :
    Carries (reportPacket report) e := by
  have hread := fun u => readReport_reportPacket u report hlen
  cases report with
  | alloc frame addr size fullName callstack =>
    cases h
    refine ⟨fun hfree => (by cases hfree), fun u => ?_⟩
    obtain ⟨r, hr, -⟩ := hread u
    exact ⟨r, hr⟩
  | free frame addr size =>
    cases h
    refine ⟨fun _ => ⟨rfl, rfl⟩, fun u => ?_⟩
    obtain ⟨r, hr, -⟩ := hread u
    exact ⟨r, hr⟩
  | references => cases h
  | paused => cases h
  | resumed => cases h

/-- **Ingestion invariant.**  It holds exactly when the sizes of all stored free events are positive
as an `int`, which is what `insert_free_event` binds them as. -/
theorem ingestionInvariant_iff (u : Uninit) {msgs : List Packet} {es : List ProfilerEvent}
    (hmsgs : List.Forall₂ Carries msgs es) (hseq : Sequential es) (hno : NoSentinel es) :
    IngestionInvariant (freshClient.processMessages u msgs).toRecorder es ↔
      ∀ e ∈ storedPart es, FitsInt e := by
  rw [Details.processMessages_of_carries hmsgs]
  obtain ⟨db, saved, h⟩ := ingested_freshClient hno
  exact h.invariant_iff hseq

/-- An object that lives for one frame, and the first event of the next frame. -/
def objectOfSize (size : UInt32) : List Report :=
  [.alloc 0 16 size (.ofLit "Big") (.ofLit "Main"), .free 0 16 size, .free 1 24 0]

theorem carries_objectOfSize (size : UInt32) :
    List.Forall₂ Carries ((objectOfSize size).map reportPacket)
      ((objectOfSize size).filterMap Report.profilerEvent) :=
  .cons (carries_reportPacket rfl (by simp [reportPacket]; decide))
    (.cons (carries_reportPacket rfl (by simp [reportPacket]))
      (.cons (carries_reportPacket rfl (by simp [reportPacket])) .nil))

theorem ingestionInvariant_object :
    IngestionInvariant
      (freshClient.processMessages ⟨0, 0, 0⟩ ((objectOfSize 64).map reportPacket)).toRecorder
      ((objectOfSize 64).filterMap Report.profilerEvent) :=
  (ingestionInvariant_iff ⟨0, 0, 0⟩ (carries_objectOfSize 64) (by decide) (by decide)).2 (by decide)

/-- An object of 2 GiB: the size of its free event comes back from the database as another one. -/
theorem ingestionInvariant_fails :
    ¬ ∀ (u : Uninit) (msgs : List Packet) (es : List ProfilerEvent),
      List.Forall₂ Carries msgs es → Sequential es → NoSentinel es →
        IngestionInvariant (freshClient.processMessages u msgs).toRecorder es := by
  intro h
  obtain ⟨db, hdb, ⟨saved, hrows, hevents⟩, -⟩ :=
    h ⟨0, 0, 0⟩ _ _ (carries_objectOfSize 0x80000000) (by decide) (by decide)
  rw [Details.processMessages_of_carries (carries_objectOfSize 0x80000000)] at hdb hevents
  have hsizes : db.profilerEvents.map (fun row => getUint64 (some row.size)) =
      saved.map fun e => e.size.toUInt64 := by
    rw [← List.forall₂_eq_eq_eq, List.forall₂_map_left_iff, List.forall₂_map_right_iff]
    exact hrows.imp fun _ _ h => h.size
  cases hdb
  replace hevents := congrArg (List.map fun e => e.size.toUInt64) hevents
  rw [List.map_append, ← hsizes] at hevents
  revert hevents
  decide

end Owlcat
