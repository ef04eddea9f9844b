import OwlcatMonoProfiler.Client.Decoding
import OwlcatMonoProfiler.Client.FrameStats
import OwlcatMonoProfiler.Client.Stopping
import OwlcatMonoProfiler.Client.Traces
import OwlcatMonoProfiler.Ui.SearchResultsData

/-!
# A saved trace is opened again

A recorded session is saved, and opened by the client that has recorded it and by another one.
What the user interface asks `mono_profiler_client_data` for is compared before and after.

* `SameContents`, `SameAnswers`: all queries of `mono_profiler_client_data`;
* `maxFrame_addEvents`: the last frame of the recording client;
* `selectMinMaxFrame_eq`: those of a client that has opened the trace and knows the stored events;
* `RecordedSession`, `LastFrameKnown`: what a session leaves, and whether its end is in the trace;
* `reopened_iff`: the answers are the same just when the last frame has been stored.
-/

namespace Owlcat

open Blocks ProfilerEvent

/-! ### Queries -/

/-- Names, callstacks and objects are the same. -/
structure SameContents (d d' : Recorder) : Prop where
  typeName : ∀ typeId, d.getTypeName typeId = d'.getTypeName typeId
  callstack : ∀ callstackId, d.getCallstack callstackId = d'.getCallstack callstackId
  typesCount : d.getTypesCount = d'.getTypesCount
  callstacksCount : d.getCallstacksCount = d'.getCallstacksCount
  liveObjects : ∀ fromFrame toFrame progressFunc,
    d.getLiveObjects fromFrame toFrame progressFunc =
      d'.getLiveObjects fromFrame toFrame progressFunc
  allocationTypeAndStack : ∀ address,
    d.getAllocationTypeAndStack address = d'.getAllocationTypeAndStack address

/-- Every query of `mono_profiler_client_data` has the same answer. -/
structure SameAnswers (d d' : Recorder) : Prop extends SameContents d d' where
  minFrame : d.minFrame = d'.minFrame
  maxFrame : d.maxFrame = d'.maxFrame
  frameStats : ∀ fromFrame toFrame, d.getStats fromFrame toFrame = d'.getStats fromFrame toFrame

theorem SameContents.symm {d d' : Recorder} (h : SameContents d d') : SameContents d' d :=
  ⟨fun i => (h.typeName i).symm, fun i => (h.callstack i).symm, h.typesCount.symm,
    h.callstacksCount.symm, fun f t p => (h.liveObjects f t p).symm,
    fun a => (h.allocationTypeAndStack a).symm⟩

theorem SameContents.trans {d₁ d₂ d₃ : Recorder} (h : SameContents d₁ d₂)
    (h' : SameContents d₂ d₃) : SameContents d₁ d₃ :=
  ⟨fun i => (h.typeName i).trans (h'.typeName i), fun i => (h.callstack i).trans (h'.callstack i),
    h.typesCount.trans h'.typesCount, h.callstacksCount.trans h'.callstacksCount,
    fun f t p => (h.liveObjects f t p).trans (h'.liveObjects f t p),
    fun a => (h.allocationTypeAndStack a).trans (h'.allocationTypeAndStack a)⟩

/-- The statistics depend on the database and on the last frame. -/
theorem getStats_congr {d d' : Recorder} (hdb : d.db = d'.db) (hmax : d.maxFrame = d'.maxFrame)
    (fromFrame toFrame : UInt64) :
    d.getStats fromFrame toFrame = d'.getStats fromFrame toFrame := by
  unfold Recorder.getStats
  rw [hdb, hmax]

/-- Maps that show the same texts have as many ids. -/
theorem length_toText_of_shown {i j : Interner} (h : ∀ id, i.shown id = j.shown id) :
    i.toText.keys.length = j.toText.keys.length := by
  have hperm : i.toText.keys.Perm j.toText.keys := by
    refine (List.perm_ext_iff_of_nodup i.toText.keys_nodup j.toText.keys_nodup).2 fun id => ?_
    rw [← AList.mem_keys, ← AList.mem_keys, mem_toText_iff, mem_toText_iff, h]
  exact hperm.length_eq

theorem untilNul_getD (i : Interner) (id : UInt64) :
    untilNul ((i.toText.lookup id).getD []) = (i.shown id).getD [] := by
  rw [Interner.shown]
  cases i.toText.lookup id <;> rfl

/-- Contents are the same when database and texts are. -/
theorem SameContents.of_shown {d d' : Recorder} (hdb : d.db = d'.db)
    (htypes : ∀ id, d.types.shown id = d'.types.shown id)
    (hcallstacks : ∀ id, d.callstacks.shown id = d'.callstacks.shown id) : SameContents d d' where
  typeName typeId := by
    rw [Recorder.getTypeName, Recorder.getTypeName, untilNul_getD, untilNul_getD, htypes]
  callstack callstackId := by
    rw [Recorder.getCallstack, Recorder.getCallstack, untilNul_getD, untilNul_getD, hcallstacks]
  typesCount := length_toText_of_shown htypes
  callstacksCount := length_toText_of_shown hcallstacks
  liveObjects fromFrame toFrame progressFunc := by
    unfold Recorder.getLiveObjects
    rw [hdb]
  allocationTypeAndStack address := by
    unfold Recorder.getAllocationTypeAndStack
    rw [hdb]

/-! ### The frames of the recording client -/

namespace Recorder

theorem maxFrame_saveEvent (d : Recorder) (e : ProfilerEvent) :
    (d.saveEvent e).maxFrame = d.maxFrame := by
  unfold saveEvent getOrCreateTypeId getOrCreateCallstackId
  cases e.type with
  | free => rfl
  | alloc =>
    cases d.types.toId.lookup e.objType <;>
      cases h : d.callstacks.toId.lookup e.callstack <;> simp [query, h]

theorem maxFrame_saveFrameEvents (d : Recorder) : d.saveFrameEvents.maxFrame = d.maxFrame := by
  have hfold : ∀ (es : List ProfilerEvent) (d : Recorder),
      (es.foldl saveEvent d).maxFrame = d.maxFrame := by
    intro es
    induction es with
    | nil => exact fun _ => rfl
    | cons e es ih => exact fun d => (ih _).trans (maxFrame_saveEvent d e)
  unfold saveFrameEvents
  split_ifs
  · rfl
  · exact hfold d.frameEvents d.beginTransaction

theorem maxFrame_flush (d : Recorder) : d.flush.maxFrame = d.maxFrame := by
  unfold flush
  split_ifs
  · exact maxFrame_saveFrameEvents d
  · rfl

theorem maxFrame_pushEvent (d : Recorder) (e : ProfilerEvent) :
    (d.pushEvent e).maxFrame = d.maxFrame := by
  unfold pushEvent
  cases e.type <;> rfl

theorem maxFrame_trySaveEvents (d : Recorder) (frame : UInt64) :
    (d.trySaveEvents frame).maxFrame =
      if frame ≠ d.prevFrame ∧ frame > d.maxFrame then frame else d.maxFrame := by
  unfold trySaveEvents
  by_cases h : frame ≠ d.prevFrame
  · rw [if_pos h]
    show (d.updateFrameBounds frame).saveFrameEvents.maxFrame = _
    rw [maxFrame_saveFrameEvents]
    simp [updateFrameBounds, h]
  · rw [if_neg h, if_neg fun h' => h h'.1]

end Recorder

/-- While frames never go backwards, the last one is the largest. -/
theorem maxFrame_addEvents {es : List ProfilerEvent} (hno : NoSentinel es) (hseq : Sequential es) :
    (freshClient.toRecorder.addEvents es).maxFrame = (lastKey frame es).getD 0 := by
  induction es using List.reverseRecOn with
  | nil => rfl
  | append_singleton es e ih =>
    have hno' : NoSentinel es := fun x hx => hno x (List.mem_append_left _ hx)
    obtain ⟨hseq', hle⟩ := pairwise_append_singleton hseq
    obtain ⟨db, saved, hing⟩ := ingested_freshClient hno'
    rw [Recorder.addEvents_append, lastKey_append, Option.getD_some]
    show (((freshClient.toRecorder.addEvents es).addEvent e).flush).maxFrame = e.frame
    rw [Recorder.maxFrame_flush, Recorder.addEvent, Recorder.maxFrame_pushEvent,
      Recorder.maxFrame_trySaveEvents, ih hno' hseq', hing.prevFrame]
    cases hlast : lastKey frame es with
    | none =>
      have hne : e.frame ≠ Recorder.noFrame := hno e (by simp)
      by_cases hzero : e.frame = 0
      · simp [hzero]
      · have hpos : (0 : UInt64) < e.frame := by
          rw [UInt64.lt_iff_toNat_lt]
          exact Nat.pos_of_ne_zero fun h => hzero (UInt64.toNat_inj.1 h)
        simp [hne, hpos]
    | some f =>
      obtain ⟨l, x, rfl, rfl⟩ := lastKey_eq_some frame hlast
      have hxe : x.frame ≤ e.frame := hle x (by simp)
      by_cases heq : e.frame = x.frame
      · simp [heq]
      · have hlt : x.frame < e.frame := by
          rw [UInt64.le_iff_toNat_le] at hxe
          rw [UInt64.lt_iff_toNat_lt]
          exact lt_of_le_of_ne hxe fun h => heq (UInt64.toNat_inj.1 h.symm)
        simp [heq, hlt]

/-! ### The frames of a trace -/

theorem toInt_bind_of_lt {frame : UInt64} (h : frame.toNat < 2 ^ 63) :
    (DbValue.uint64 frame).bind.toInt = frame.toNat := by
  refine BitVec.toInt_eq_toNat_of_lt (x := frame.toBitVec) ?_
  rw [UInt64.toNat_toBitVec]
  omega

/-- The smallest and the largest frame of the rows, when frames never go backwards. -/
theorem selectMinMaxFrame_eq {types callstacks : Interner} {db : Database}
    {saved : List ProfilerEvent} (h : Recorded types callstacks db saved)
    (hseq : Sequential saved) (hframes : ∀ e ∈ saved, e.frame.toNat < 2 ^ 63) :
    getUint64 db.selectMinMaxFrame.1 = (saved.head?.map frame).getD 0 ∧
      getUint64 db.selectMinMaxFrame.2 = (lastKey frame saved).getD 0 := by
  have hrow : ∀ e : ProfilerEvent, (storedRow types callstacks e).frame =
      (DbValue.uint64 e.frame).bind := fun e => by cases he : e.type <;> simp only [storedRow, he]
  have hmap : db.profilerEvents.map (fun row => row.frame) =
      saved.map fun e => (DbValue.uint64 e.frame).bind := by
    rw [h.events, List.map_map]
    exact List.map_congr_left fun e _ => hrow e
  have hsorted : saved.Pairwise fun x y =>
      (DbValue.uint64 x.frame).bind ≤ (DbValue.uint64 y.frame).bind := by
    refine hseq.imp_of_mem fun {x y} hx hy hxy => ?_
    rw [Int64.le_iff_toInt_le, toInt_bind_of_lt (hframes x hx), toInt_bind_of_lt (hframes y hy)]
    exact Int.ofNat_le.2 (UInt64.le_iff_toNat_le.1 hxy)
  have hget : ∀ o : Option ProfilerEvent,
      getUint64 (o.map fun e => (DbValue.uint64 e.frame).bind) = (o.map frame).getD 0 := by
    intro o
    cases o with
    | none => rfl
    | some e => exact getUint64_bind e.frame
  rw [Database.selectMinMaxFrame, hmap, Sorting.min?_map_of_pairwise _ hsorted,
    Sorting.max?_map_of_pairwise _ hsorted]
  exact ⟨hget _, hget _⟩

/-- What `open_data` makes of the members that have to do with events and the database. -/
def Recorder.loaded (d : Recorder) (db : Database) : Recorder :=
  { d with db := some { db := db } }.loadTypesAndCallstacks db

theorem openData_spec {d : Details} (hthread : d.thread = .none) (db : Database) :
    (d.openData (some db)).1 = true ∧
      (d.openData (some db)).2.toRecorder = d.toRecorder.loaded db := by
  have hopen : d.openData (some db) =
      (true, { d with toRecorder := d.toRecorder.loaded db }) := by
    simp [Details.openData, hthread, Recorder.loaded]
  rw [hopen]
  exact ⟨rfl, rfl⟩

/-- The texts that were stored are those the recording client knows. -/
theorem shown_of_textsNumbered {i j : Interner} {table : Dict Int64 (List UInt8)}
    {names : List (List UInt8)} (h : TextsNumbered i table names)
    (hj : ∀ id, j.shown id = i.shown id ∨ j.shown id = none) (id : UInt64) :
    (Recorder.loadTexts j table).shown id = i.shown id := by
  have hrow : (table.lookup (DbValue.uint64 id).bind).map getString = i.shown id := by
    rw [h.table]
    rfl
  rw [shown_loadTexts, hrow]
  rcases hj id with hj | hj
  · rw [hj]
    exact Option.or_self
  · rw [hj, Option.none_or]

/-- A recorded session: its texts are numbered, in its database and in its maps. -/
structure RecordedSession (d : Recorder) (db : Database) (saved es : List ProfilerEvent) : Prop
    extends Ingested d db saved es where
  minFrame_eq : d.minFrame = (es.head?.map frame).getD 0
  maxFrame_eq : d.maxFrame = (lastKey frame es).getD 0
  types : ∃ names, TextsNumbered d.types db.objectTypes names
  callstacks : ∃ names, TextsNumbered d.callstacks db.callstacks names

theorem length_eraseDups_le {α : Type} [BEq α] [LawfulBEq α] (l : List α) :
    l.eraseDups.length ≤ l.length :=
  ((Grouping.nodup_eraseDups l).subperm fun _ ha => List.mem_eraseDups.1 ha).length_le

theorem recordedSession {es : List ProfilerEvent} (hno : NoSentinel es) (hseq : Sequential es)
    (hlen : es.length ≤ 2 ^ 64) :
    ∃ db saved, RecordedSession (freshClient.toRecorder.addEvents es) db saved es := by
  obtain ⟨db, saved, h⟩ := ingested_freshClient hno
  obtain ⟨db', saved', hdb', hevents, htexts⟩ := (stored_freshClient.addEvents es).storedDecodes
  rw [List.nil_append] at hevents
  obtain rfl : db = db' := by
    have := h.opened.symm.trans hdb'
    simpa using this
  obtain rfl : saved' = saved := List.append_cancel_right (hevents.trans h.events)
  have hsaved : saved'.length ≤ 2 ^ 64 := by
    have hadd := congrArg List.length h.events
    rw [List.length_append] at hadd
    omega
  have hshort : ∀ f : ProfilerEvent → List UInt8,
      ((saved'.filter fun e => e.type = .alloc).map f).eraseDups.length ≤ 2 ^ 64 := fun f => by
    refine (length_eraseDups_le _).trans ?_
    rw [List.length_map]
    exact (List.length_filter_le _ _).trans hsaved
  obtain ⟨htypes, hcallstacks, -⟩ := htexts ⟨(Interner.accepted_iff _).2 (hshort objType),
    (Interner.accepted_iff _).2 (hshort callstack)⟩
  refine ⟨db, saved', { h with
    minFrame_eq := ?_
    maxFrame_eq := maxFrame_addEvents hno hseq
    types := ⟨_, htypes⟩
    callstacks := ⟨_, hcallstacks⟩ }⟩
  cases es with
  | nil => rfl
  | cons e es => exact h.minFrame e rfl

/-! ### The frames that are stored -/

/-- The last frame has been stored, or is the one an empty trace seems to end with. -/
def LastFrameKnown (es : List ProfilerEvent) : Prop :=
  (∀ e ∈ es, e.frame = 0) ∨ 10001 ≤ (trailing frame es).length

instance (es : List ProfilerEvent) : Decidable (LastFrameKnown es) :=
  inferInstanceAs (Decidable ((∀ e ∈ es, e.frame = 0) ∨ 10001 ≤ (trailing frame es).length))

theorem bounds_of_zero {es : List ProfilerEvent} (h : ∀ e ∈ es, e.frame = 0) :
    (es.head?.map frame).getD 0 = 0 ∧ (lastKey frame es).getD 0 = 0 := by
  constructor
  · cases es with
    | nil => rfl
    | cons e es => exact h e List.mem_cons_self
  · cases hlast : lastKey frame es with
    | none => rfl
    | some f =>
      obtain ⟨l, e, rfl, rfl⟩ := lastKey_eq_some frame hlast
      exact h e (by simp)

/-- The events of the last frame are the last block. -/
theorem trailing_eq_filter {es : List ProfilerEvent} (hseq : Sequential es) {f : UInt64}
    (hlast : lastKey frame es = some f) : trailing frame es = es.filter fun e => e.frame = f := by
  rw [trailing, hlast]
  exact lastBlock_eq_filter hseq

namespace Ingested

variable {d : Recorder} {db : Database} {saved es : List ProfilerEvent} {f : UInt64}

/-- An event of the last frame is stored just when its buffer was full once. -/
theorem exists_saved_iff (h : Ingested d db saved es) (hseq : Sequential es)
    (hlast : lastKey frame es = some f) :
    (∃ e ∈ saved, e.frame = f) ↔ 10001 ≤ (trailing frame es).length := by
  have hlength := h.length
  have htrailing : trailing frame es = saved.filter (fun e => e.frame = f) ++ d.frameEvents := by
    rw [trailing_eq_filter hseq hlast]
    conv_lhs => rw [h.events, List.filter_append]
    congr 1
    refine List.filter_eq_self.2 fun e he => decide_eq_true ?_
    rw [h.frame_of_mem he, h.prevFrame, hlast, Option.getD_some]
  have hcount : (trailing frame es).length =
      (saved.filter fun e => e.frame = f).length + d.frameEvents.length := by
    rw [htrailing, List.length_append]
  have hpos : (∃ e ∈ saved, e.frame = f) ↔ 0 < (saved.filter fun e => e.frame = f).length := by
    simp [List.length_pos_iff_exists_mem, List.mem_filter]
  rw [hpos]
  omega

/-- A trace that ends with the last frame has something of it, or there is frame 0 only. -/
theorem lastFrameKnown_of_lastKey (h : Ingested d db saved es) (hseq : Sequential es)
    (hmax : (lastKey frame saved).getD 0 = (lastKey frame es).getD 0) : LastFrameKnown es := by
  cases hlast : lastKey frame es with
  | none =>
    have hnil : es = [] := by simpa [lastKey] using hlast
    exact Or.inl (by simp [hnil])
  | some f =>
    rw [hlast, Option.getD_some] at hmax
    by_cases hsome : ∃ e ∈ saved, e.frame = f
    · exact Or.inr ((h.exists_saved_iff hseq hlast).1 hsome)
    · -- nothing is stored of the last frame, so nothing at all is
      have hnil : saved = [] := by
        cases hsaved : lastKey frame saved with
        | none => simpa [lastKey] using hsaved
        | some g =>
          obtain ⟨l, e, hle, rfl⟩ := lastKey_eq_some frame hsaved
          rw [hsaved, Option.getD_some] at hmax
          exact absurd ⟨e, by simp [hle], hmax⟩ hsome
      have hzero : f = 0 := by
        rw [← hmax, hnil]
        rfl
      refine Or.inl fun e he => ?_
      rw [h.events, hnil, List.nil_append] at he
      rw [h.frame_of_mem he, h.prevFrame, hlast, Option.getD_some, hzero]

/-- Otherwise it ends earlier. -/
theorem lastKey_saved_lt (h : Ingested d db saved es) (hseq : Sequential es)
    (hnot : ¬LastFrameKnown es) :
    (lastKey frame saved).getD 0 < (lastKey frame es).getD 0 := by
  have hne := mt (h.lastFrameKnown_of_lastKey hseq) hnot
  refine UInt64.not_le.1 fun hle => hne (UInt64.le_antisymm ?_ hle)
  cases hsaved : lastKey frame saved with
  | none => exact UInt64.zero_le
  | some g =>
    obtain ⟨l, e, hl, rfl⟩ := lastKey_eq_some frame hsaved
    have hmem : e ∈ es := by rw [h.events, hl]; simp
    cases hlast : lastKey frame es with
    | none =>
      have hnil : es = [] := by simpa [lastKey] using hlast
      rw [hnil] at hmem
      cases hmem
    | some f => exact le_of_lastKey hseq hlast e hmem

/-- A trace that has something of the last frame ends with it. -/
theorem lastKey_saved (h : Ingested d db saved es) (hseq : Sequential es)
    (hfull : 10001 ≤ (trailing frame es).length) : lastKey frame saved = lastKey frame es := by
  cases hlast : lastKey frame es with
  | none =>
    rw [trailing, hlast] at hfull
    simp at hfull
  | some f =>
    obtain ⟨e, he, hef⟩ := (h.exists_saved_iff hseq hlast).2 hfull
    have hevents := h.events
    rw [hevents] at hseq hlast
    exact lastKey_of_mem hseq hlast he hef

/-- The first and the last frame of the trace are those of the session just when the last frame is
known. -/
theorem bounds_iff (h : Ingested d db saved es) (hseq : Sequential es) :
    (saved.head?.map frame).getD 0 = (es.head?.map frame).getD 0 ∧
        (lastKey frame saved).getD 0 = (lastKey frame es).getD 0 ↔ LastFrameKnown es := by
  constructor
  · rintro ⟨-, hmax⟩
    exact h.lastFrameKnown_of_lastKey hseq hmax
  · rintro (hzero | hfull)
    · have hmem : ∀ e ∈ saved, e ∈ es := fun e he => h.events ▸ List.mem_append_left _ he
      obtain ⟨h1, h2⟩ := bounds_of_zero hzero
      obtain ⟨h3, h4⟩ := bounds_of_zero fun e he => hzero e (hmem e he)
      rw [h1, h2, h3, h4]
      exact ⟨rfl, rfl⟩
    · have hlast := h.lastKey_saved hseq hfull
      refine ⟨?_, by rw [hlast]⟩
      cases saved with
      | nil =>
        rw [trailing, ← hlast, lastKey_nil] at hfull
        simp at hfull
      | cons e saved =>
        rw [h.events]
        rfl

end Ingested

namespace RecordedSession

variable {d : Recorder} {db : Database} {saved es : List ProfilerEvent}

/-- Names, callstacks and objects are those of the session, for the client that has recorded it and
for one that knows no texts. -/
theorem sameContents (h : RecordedSession d db saved es) {c : Recorder}
    (htypes : ∀ id, c.types.shown id = d.types.shown id ∨ c.types.shown id = none)
    (hcallstacks : ∀ id, c.callstacks.shown id = d.callstacks.shown id ∨
      c.callstacks.shown id = none) : SameContents d (c.loaded db) := by
  obtain ⟨names, hnames⟩ := h.types
  obtain ⟨texts, htexts⟩ := h.callstacks
  exact .of_shown h.opened (fun id => (shown_of_textsNumbered hnames htypes id).symm)
    fun id => (shown_of_textsNumbered htexts hcallstacks id).symm

/-- Frames and statistics are, too, just when the last frame is known. -/
theorem sameAnswers_iff (h : RecordedSession d db saved es) (hseq : Sequential es)
    (hframes : ∀ e ∈ es, e.frame.toNat < 2 ^ 63) {c : Recorder}
    (hcontents : SameContents d (c.loaded db)) :
    SameAnswers d (c.loaded db) ↔ LastFrameKnown es := by
  have hseqSaved : Sequential saved := by
    rw [h.events] at hseq
    exact (List.pairwise_append.1 hseq).1
  obtain ⟨hmin, hmax⟩ := selectMinMaxFrame_eq h.recorded hseqSaved
    fun e he => hframes e (h.events ▸ List.mem_append_left _ he)
  rw [← h.toIngested.bounds_iff hseq, ← hmin, ← hmax, ← h.minFrame_eq, ← h.maxFrame_eq]
  constructor
  · exact fun hsame => ⟨hsame.minFrame.symm, hsame.maxFrame.symm⟩
  · rintro ⟨hmin', hmax'⟩
    exact ⟨hcontents, hmin'.symm, hmax'.symm, getStats_congr h.opened hmax'.symm⟩

/-- Otherwise the trace ends earlier. -/
theorem maxFrame_loaded_lt (h : RecordedSession d db saved es) (hseq : Sequential es)
    (hframes : ∀ e ∈ es, e.frame.toNat < 2 ^ 63) (hnot : ¬LastFrameKnown es) (c : Recorder) :
    (c.loaded db).maxFrame < d.maxFrame := by
  have hseqSaved : Sequential saved := by
    rw [h.events] at hseq
    exact (List.pairwise_append.1 hseq).1
  obtain ⟨-, hmax⟩ := selectMinMaxFrame_eq h.recorded hseqSaved
    fun e he => hframes e (h.events ▸ List.mem_append_left _ he)
  have hlt := h.toIngested.lastKey_saved_lt hseq hnot
  rw [← hmax, ← h.maxFrame_eq] at hlt
  exact hlt

end RecordedSession

/-- **A saved trace answers like the session** that was recorded, to every client that opens it,
just when something was stored of the last frame: otherwise the trace ends earlier.  Names,
callstacks and objects are the same in any case, and so are all answers of the client that has saved
the trace and of a new one. -/
theorem reopened_iff (u : Uninit) {msgs : List Packet} {es : List ProfilerEvent}
    {l : List Details.Action} {d : Details} (hmsgs : List.Forall₂ Carries msgs es)
    (hl : Details.Session msgs l) (hrun : Run.run (Details.step u) freshClient l = some d)
    (hreturned : d.thread = .returned) (hseq : Sequential es)
    (hframes : ∀ e ∈ es, e.frame.toNat < 2 ^ 63) (hlen : es.length ≤ 2 ^ 64) :
    let saving := d.joinThread.saveDb
    let opening := ({} : Details).openData (saving.2.db.map Storage.db)
    saving.1 = true ∧ opening.1 = true ∧
      SameAnswers saving.2.toRecorder opening.2.toRecorder ∧
      SameContents d.toRecorder opening.2.toRecorder ∧
      (SameAnswers d.toRecorder opening.2.toRecorder ↔ LastFrameKnown es) ∧
      (¬LastFrameKnown es → opening.2.maxFrame < d.maxFrame) := by
  have hno : NoSentinel es := fun e he hsentinel => by
    have hlt := hframes e he
    rw [hsentinel] at hlt
    exact absurd hlt (by decide)
  obtain ⟨db, saved, h⟩ := recordedSession hno hseq hlen
  have hd := run_session_freshClient hmsgs hl hrun hreturned
  rw [h.toIngested.submitLastEvents_eq] at hd
  rw [← hd] at h
  have hdb : d.joinThread.db = some { db := db } := h.opened
  have hsaving : d.joinThread.saveDb = d.joinThread.openData (some db) := by
    rw [Details.saveDb, hdb]
  obtain ⟨hsave, hsaved⟩ := openData_spec (d := d.joinThread) rfl db
  obtain ⟨hopen, hopened⟩ := openData_spec (d := {}) rfl db
  have hfile : (d.joinThread.openData (some db)).2.db = some { db := db } := by rw [hsaved]; rfl
  have hfresh : SameContents d.toRecorder (({} : Details).loaded db) :=
    h.sameContents (fun _ => Or.inr rfl) fun _ => Or.inr rfl
  have hown : SameContents d.toRecorder (d.joinThread.loaded db) :=
    h.sameContents (fun _ => Or.inl rfl) fun _ => Or.inl rfl
  rw [hsaving]
  dsimp only
  rw [hfile, Option.map_some, hsaved, hopened]
  exact ⟨hsave, hopen, ⟨hown.symm.trans hfresh, rfl, rfl, getStats_congr rfl rfl⟩, hfresh,
    h.sameAnswers_iff hseq hframes hfresh, fun hnot => h.maxFrame_loaded_lt hseq hframes hnot _⟩

/-- Of a session of two frames nothing is stored of the second: its trace ends with the first. -/
theorem reopened_iff_object :
    ∃ d : Details, d.thread = .returned ∧
      let saving := d.joinThread.saveDb
      let opening := ({} : Details).openData (saving.2.db.map Storage.db)
      SameContents d.toRecorder opening.2.toRecorder ∧
        ¬ SameAnswers d.toRecorder opening.2.toRecorder := by
  obtain ⟨l, d, hl, hrun, hreturned⟩ :=
    Details.exists_session ⟨0, 0, 0⟩ (d := freshClient) rfl (Or.inr rfl)
      ((objectOfSize 64).map reportPacket)
  obtain ⟨-, -, -, hcontents, hiff, -⟩ := reopened_iff ⟨0, 0, 0⟩ (carries_objectOfSize 64) hl hrun
    hreturned (by decide) (by decide) (by decide)
  exact ⟨d, hreturned, hcontents, fun hsame => absurd (hiff.1 hsame) (by decide)⟩

end Owlcat
