import OwlcatMonoProfiler.Client.Details

/-!
# What saving events writes

The effect of `save_frame_events` on a database whose writes succeed.

* `intern`: what `get_or_create_type_id` and `get_or_create_callstack_id` do to a pair of maps and a
  table (`getOrCreateTypeId_record`, `getOrCreateCallstackId_record`);
* `Interned`: the texts of a table are those of the maps, and every id given out has a row;
* `storedRow`: the row an event is stored as;
* `saveFrameEvents_spec`: the buffer becomes rows, and the frame gets its statistics.
-/

namespace Owlcat

/-! ### Stored integers -/

@[simp] theorem getUint64_bind (value : UInt64) :
    getUint64 (some (DbValue.uint64 value).bind) = value :=
  UInt64.toUInt64_toInt64 value

theorem bind_getUint64 (value : Int64) : (DbValue.uint64 (getUint64 (some value))).bind = value :=
  Int64.toInt64_toUInt64 value

theorem getUint64_inj {x y : Int64} : getUint64 (some x) = getUint64 (some y) ↔ x = y := by
  refine ⟨fun h => ?_, fun h => by rw [h]⟩
  rw [← Int64.toInt64_toUInt64 x, ← Int64.toInt64_toUInt64 y]
  exact congrArg UInt64.toInt64 h

theorem bind_uint64_inj {a b : UInt64} (h : (DbValue.uint64 a).bind = (DbValue.uint64 b).bind) :
    a = b := by
  rw [← getUint64_bind a, h, getUint64_bind]

@[simp] theorem bind_uint64_ofNat (n : ℕ) :
    (DbValue.uint64 (UInt64.ofNat n)).bind = Int64.ofNat n :=
  UInt64.toInt64_ofNat'

/-- The size of a free event is read back when it is positive as an `int`. -/
theorem getUint64_bind_uint32 (size : UInt32) :
    getUint64 (some (DbValue.uint32 size).bind) = size.toUInt64 ↔ size < 0x80000000 := by
  constructor
  · intro h
    by_contra hsize
    have htop : (getUint64 (some (DbValue.uint32 size).bind)).toBitVec.msb = true := by
      change (size.toBitVec.signExtend 64).msb = true
      have hmsb : size.toBitVec.msb = true := by
        rw [BitVec.msb_eq_decide]
        simpa [UInt32.lt_iff_toNat_lt] using hsize
      simp [BitVec.msb_signExtend, hmsb]
    rw [h] at htop
    change (size.toBitVec.setWidth 64).msb = true at htop
    rw [BitVec.msb_setWidth] at htop
    simp at htop
  · intro hsize
    refine UInt64.toBitVec_inj.1 ?_
    change size.toBitVec.signExtend 64 = size.toBitVec.setWidth 64
    refine BitVec.signExtend_eq_setWidth_of_msb_false ?_
    rw [BitVec.msb_eq_decide]
    simpa [UInt32.lt_iff_toNat_lt] using hsize

/-! ### Interning -/

/-- The texts that have an id keep it. -/
def Interner.Le (i j : Interner) : Prop :=
  ∀ text id, i.toId.lookup text = some id → j.toId.lookup text = some id

namespace Interner

theorem Le.refl (i : Interner) : i.Le i := fun _ _ h => h

theorem Le.trans {i j k : Interner} (h : i.Le j) (h' : j.Le k) : i.Le k :=
  fun text id hid => h' text id (h text id hid)

theorem Le.mem {i j : Interner} (h : i.Le j) {text : List UInt8} (ht : text ∈ i.toId) :
    text ∈ j.toId := by
  obtain ⟨id, hid⟩ := Dict.mem_iff_lookup.1 ht
  exact Dict.mem_iff_lookup.2 ⟨id, h text id hid⟩

/-- The id of a text, and maps and table after it was asked for. -/
def intern (i : Interner) (table : Dict Int64 (List UInt8)) (text : List UInt8) :
    UInt64 × Interner × Dict Int64 (List UInt8) :=
  match i.toId.lookup text with
  | some id => (id, i, table)
  | none => (i.nextId, i.create text, (Database.insertText table i.nextId text).getD table)

theorem lookup_create {i : Interner} {text : List UInt8} (h : i.toId.lookup text = none)
    (text' : List UInt8) :
    (i.create text).toId.lookup text' =
      if text' = text then some i.nextId else i.toId.lookup text' := by
  rw [create, insert, Dict.lookup_emplace, h, Option.getD_none]

theorem le_intern (i : Interner) (table : Dict Int64 (List UInt8)) (text : List UInt8) :
    i.Le (i.intern table text).2.1 := by
  unfold intern
  cases h : i.toId.lookup text with
  | some id => exact Le.refl i
  | none =>
    intro text' id hid
    rw [lookup_create h]
    split_ifs with ht
    · rw [ht, h] at hid
      cases hid
    · exact hid

theorem lookup_intern (i : Interner) (table : Dict Int64 (List UInt8)) (text : List UInt8) :
    (i.intern table text).2.1.toId.lookup text = some (i.intern table text).1 := by
  unfold intern
  cases h : i.toId.lookup text with
  | some id => exact h
  | none => rw [lookup_create h, if_pos rfl]

/-- Maps and table of one session.  Every text of the table has an id and every id given out has a
row; so long as there are ids left, it is the row of its text, and ids are given out in order. -/
structure Interned (i : Interner) (table : Dict Int64 (List UInt8)) : Prop where
  texts : ∀ text ∈ Dict.values table, text ∈ i.toId
  rows : ∀ text id, i.toId.lookup text = some id → (DbValue.uint64 id).bind ∈ table
  next : table.keys.length < 2 ^ 64 → i.nextId.toNat = table.keys.length
  ids : ∀ id ∈ table, table.keys.length < 2 ^ 64 →
    (getUint64 (some id)).toNat < table.keys.length
  decode : table.keys.length < 2 ^ 64 →
    ∀ text id, i.toId.lookup text = some id → table.lookup (DbValue.uint64 id).bind = some text

theorem Interned.empty : Interned {} ∅ :=
  ⟨by simp [Dict.values], by simp, fun _ => rfl, by simp, by simp⟩

/-- A row for a new text, when its id is not in use. -/
theorem insertText_of_notMem {table : Dict Int64 (List UInt8)} {id : UInt64} {text : List UInt8}
    (hid : (DbValue.uint64 id).bind ∉ table) (htext : text ∉ Dict.values table) :
    Database.insertText table id text = some (table.insert (DbValue.uint64 id).bind text) :=
  if_neg fun h => h.elim hid htext

theorem values_insert {table : Dict Int64 (List UInt8)} {id : Int64} (hid : id ∉ table)
    (text : List UInt8) : Dict.values (table.insert id text) = text :: Dict.values table := by
  rw [Dict.values, AList.entries_insert_of_notMem hid]
  rfl

theorem length_keys_insert {table : Dict Int64 (List UInt8)} {id : Int64} (hid : id ∉ table)
    (text : List UInt8) : (table.insert id text).keys.length = table.keys.length + 1 := by
  rw [AList.keys_insert, List.length_cons, List.erase_of_not_mem hid]

/-- So long as there are ids left, the next one has no row. -/
theorem Interned.nextId_notMem {i : Interner} {table : Dict Int64 (List UInt8)}
    (h : Interned i table) (hlt : table.keys.length < 2 ^ 64) :
    (DbValue.uint64 i.nextId).bind ∉ table := by
  intro hrow
  have hlt' := h.ids _ hrow hlt
  rw [getUint64_bind, h.next hlt] at hlt'
  exact lt_irrefl _ hlt'

theorem mem_create (i : Interner) (text text' : List UInt8) :
    text' ∈ (i.create text).toId ↔ text' = text ∨ text' ∈ i.toId :=
  Dict.mem_emplace text i.nextId i.toId text'

/-- A new text whose row is rejected: the counter has come back to an id that is in use. -/
theorem Interned.rejected {i : Interner} {table : Dict Int64 (List UInt8)} (h : Interned i table)
    {text : List UInt8} (hid : i.toId.lookup text = none)
    (hrow : (DbValue.uint64 i.nextId).bind ∈ table) : Interned (i.create text) table := by
  have hfull : ¬ table.keys.length < 2 ^ 64 := fun hlt => h.nextId_notMem hlt hrow
  refine ⟨fun t ht => (mem_create i text t).2 (Or.inr (h.texts t ht)), fun t id ht => ?_,
    fun hlt => absurd hlt hfull, fun _ _ hlt => absurd hlt hfull, fun hlt => absurd hlt hfull⟩
  rw [lookup_create hid] at ht
  split_ifs at ht with he
  · cases ht
    exact hrow
  · exact h.rows t id ht

/-- A new text with its row. -/
theorem Interned.insertRow {i : Interner} {table : Dict Int64 (List UInt8)} (h : Interned i table)
    {text : List UInt8} (hid : i.toId.lookup text = none)
    (hrow : (DbValue.uint64 i.nextId).bind ∉ table) :
    Interned (i.create text) (table.insert (DbValue.uint64 i.nextId).bind text) := by
  have hlen := length_keys_insert hrow text
  have hlookup := lookup_create hid
  refine ⟨fun t ht => ?_, fun t id ht => ?_, fun hlt => ?_, fun id hmem hlt => ?_,
    fun hlt t id ht => ?_⟩
  · rw [values_insert hrow, List.mem_cons] at ht
    exact (mem_create i text t).2 (ht.imp_right (h.texts t))
  · rw [hlookup] at ht
    rw [AList.mem_insert]
    split_ifs at ht with he
    · cases ht
      exact Or.inl rfl
    · exact Or.inr (h.rows t id ht)
  · rw [hlen] at hlt ⊢
    have hnext := h.next (by omega)
    show (i.nextId + 1).toNat = _
    rw [UInt64.toNat_add, hnext]
    exact Nat.mod_eq_of_lt hlt
  · -- ids in the table are below the number of rows
    rw [hlen] at hlt ⊢
    rw [AList.mem_insert] at hmem
    rcases hmem with rfl | hmem
    · rw [getUint64_bind, h.next (by omega)]
      exact Nat.lt_succ_self _
    · exact Nat.lt_succ_of_lt (h.ids id hmem (by omega))
  · rw [hlen] at hlt
    rw [hlookup] at ht
    split_ifs at ht with he
    · cases ht
      rw [he, AList.lookup_insert]
    · -- a text from before has another id, so the new row does not hide its own
      have hne : (DbValue.uint64 id).bind ≠ (DbValue.uint64 i.nextId).bind :=
        fun e => hrow (e ▸ h.rows t id ht)
      rw [AList.lookup_insert_ne hne]
      exact h.decode (by omega) t id ht

/-- Asking for the id of a text keeps maps and table together. -/
theorem Interned.intern {i : Interner} {table : Dict Int64 (List UInt8)} (h : Interned i table)
    (text : List UInt8) :
    Interned (i.intern table text).2.1 (i.intern table text).2.2 ∧
      (i.intern table text).2.2.keys.length ≤ table.keys.length + 1 := by
  unfold Interner.intern
  cases hid : i.toId.lookup text with
  | some id => exact ⟨h, Nat.le_succ _⟩
  | none =>
    by_cases hrow : (DbValue.uint64 i.nextId).bind ∈ table
    · rw [Database.insertText, if_pos (Or.inl hrow)]
      exact ⟨h.rejected hid hrow, Nat.le_succ _⟩
    · have htext : text ∉ Dict.values table := fun ht =>
        AList.lookup_eq_none.1 hid (h.texts text ht)
      rw [insertText_of_notMem hrow htext, Option.getD_some]
      exact ⟨h.insertRow hid hrow, (length_keys_insert hrow text).le⟩

end Interner

/-! ### Rows -/

/-- The row an event is stored as; ids are those of the maps. -/
def storedRow (types callstacks : Interner) (e : ProfilerEvent) : EventRow :=
  match e.type with
  | .alloc =>
    { eventTypeId := 1
      typeId := (types.toId.lookup e.objType).map fun id => (DbValue.uint64 id).bind
      address := (DbValue.uint64 e.addr).bind
      size := (DbValue.uint64 e.size.toUInt64).bind
      frame := (DbValue.uint64 e.frame).bind
      callstackId := (callstacks.toId.lookup e.callstack).map fun id => (DbValue.uint64 id).bind }
  | .free =>
    { eventTypeId := 2
      typeId := none
      address := (DbValue.uint64 e.addr).bind
      size := (DbValue.uint32 e.size).bind
      frame := (DbValue.uint64 e.frame).bind
      callstackId := none }

/-- Type and callstack of an event are in the maps, if it has them. -/
def Known (types callstacks : Interner) (e : ProfilerEvent) : Prop :=
  e.type = .alloc → e.objType ∈ types.toId ∧ e.callstack ∈ callstacks.toId

theorem Known.mono {types types' callstacks callstacks' : Interner} {e : ProfilerEvent}
    (h : Known types callstacks e) (ht : types.Le types') (hc : callstacks.Le callstacks') :
    Known types' callstacks' e :=
  fun he => ⟨ht.mem (h he).1, hc.mem (h he).2⟩

/-- Later ids do not change the row of a known event. -/
theorem storedRow_mono {types types' callstacks callstacks' : Interner} {e : ProfilerEvent}
    (h : Known types callstacks e) (ht : types.Le types') (hc : callstacks.Le callstacks') :
    storedRow types' callstacks' e = storedRow types callstacks e := by
  cases he : e.type with
  | free => simp only [storedRow, he]
  | alloc =>
    obtain ⟨typeId, htype⟩ := Dict.mem_iff_lookup.1 (h he).1
    obtain ⟨callstackId, hcallstack⟩ := Dict.mem_iff_lookup.1 (h he).2
    simp only [storedRow, he, htype, hcallstack, ht _ _ htype, hc _ _ hcallstack]

/-- Maps and database hold the events `es`, and no other. -/
structure Recorded (types callstacks : Interner) (db : Database) (es : List ProfilerEvent) :
    Prop where
  events : db.profilerEvents = es.map (storedRow types callstacks)
  known : ∀ e ∈ es, Known types callstacks e
  types : types.Interned db.objectTypes
  callstacks : callstacks.Interned db.callstacks
  typesLength : db.objectTypes.keys.length ≤ es.length
  callstacksLength : db.callstacks.keys.length ≤ es.length

namespace Recorded

theorem nil : Recorded {} {} {} [] :=
  ⟨rfl, by simp, .empty, .empty, le_rfl, le_rfl⟩

/-- One more event, under maps that may have grown. -/
theorem append {types types' callstacks callstacks' : Interner} {db db' : Database}
    {es : List ProfilerEvent} {e : ProfilerEvent} (h : Recorded types callstacks db es)
    (ht : types.Le types') (hc : callstacks.Le callstacks') (he : Known types' callstacks' e)
    (hevents : db'.profilerEvents = db.profilerEvents ++ [storedRow types' callstacks' e])
    (htypes : types'.Interned db'.objectTypes) (hcallstacks : callstacks'.Interned db'.callstacks)
    (htl : db'.objectTypes.keys.length ≤ db.objectTypes.keys.length + 1)
    (hcl : db'.callstacks.keys.length ≤ db.callstacks.keys.length + 1) :
    Recorded types' callstacks' db' (es ++ [e]) := by
  have hlen : (es ++ [e]).length = es.length + 1 := List.length_append
  refine ⟨?_, fun x hx => ?_, htypes, hcallstacks, ?_, ?_⟩
  · have hsame : es.map (storedRow types' callstacks') = es.map (storedRow types callstacks) :=
      List.map_congr_left fun x hx => storedRow_mono (h.known x hx) ht hc
    rw [hevents, h.events, List.map_append, hsame, List.map_cons, List.map_nil]
  · rcases List.mem_append.1 hx with hx | hx
    · exact (h.known x hx).mono ht hc
    · rw [List.mem_singleton.1 hx]
      exact he
  · have := h.typesLength
    omega
  · have := h.callstacksLength
    omega

end Recorded

namespace Recorder

/-- The client with other records: only database and maps change. -/
def record (d : Recorder) (st : Storage) (types callstacks : Interner) : Recorder :=
  { d with db := some st, types := types, callstacks := callstacks }

@[simp] theorem record_record (d : Recorder) (st st' : Storage) (t t' c c' : Interner) :
    (d.record st t c).record st' t' c' = d.record st' t' c' := rfl

@[simp] theorem db_record (d : Recorder) (st : Storage) (t c : Interner) :
    (d.record st t c).db = some st := rfl

@[simp] theorem types_record (d : Recorder) (st : Storage) (t c : Interner) :
    (d.record st t c).types = t := rfl

@[simp] theorem callstacks_record (d : Recorder) (st : Storage) (t c : Interner) :
    (d.record st t c).callstacks = c := rfl

@[simp] theorem query_record (d : Recorder) (db : Database) (rollback : Option Database)
    (t c : Interner) (statement : Database → Option Database) :
    (d.record ⟨db, rollback, []⟩ t c).query statement =
      d.record ⟨(statement db).getD db, rollback, []⟩ t c := rfl

/-- The statistics of the frame whose events are being received. -/
def currentStats (d : Recorder) : StatsRow :=
  ⟨(DbValue.uint64 d.frameAllocs).bind, (DbValue.uint64 d.frameFrees).bind,
    (DbValue.int64 d.sizeRunningTotal).bind⟩

variable (d : Recorder) (db : Database) (rollback : Option Database) (types callstacks : Interner)

theorem getOrCreateTypeId_record (type : List UInt8) :
    (d.record ⟨db, rollback, []⟩ types callstacks).getOrCreateTypeId type =
      ((types.intern db.objectTypes type).1,
        d.record ⟨{ db with objectTypes := (types.intern db.objectTypes type).2.2 }, rollback, []⟩
          (types.intern db.objectTypes type).2.1 callstacks) := by
  unfold getOrCreateTypeId Interner.intern
  rw [types_record]
  cases types.toId.lookup type with
  | some id => rfl
  | none =>
    have hquery := query_record d db rollback (types.create type) callstacks
      (Database.insertType type types.nextId)
    refine Prod.ext rfl (hquery.trans ?_)
    rw [Database.insertType]
    cases Database.insertText db.objectTypes types.nextId type <;> rfl

theorem getOrCreateCallstackId_record (callstack : List UInt8) :
    (d.record ⟨db, rollback, []⟩ types callstacks).getOrCreateCallstackId callstack =
      ((callstacks.intern db.callstacks callstack).1,
        d.record ⟨{ db with callstacks := (callstacks.intern db.callstacks callstack).2.2 },
          rollback, []⟩ types (callstacks.intern db.callstacks callstack).2.1) := by
  unfold getOrCreateCallstackId Interner.intern
  rw [callstacks_record]
  cases callstacks.toId.lookup callstack with
  | some id => rfl
  | none =>
    have hquery := query_record d db rollback types (callstacks.create callstack)
      (Database.insertCallstack callstack callstacks.nextId)
    refine Prod.ext rfl (hquery.trans ?_)
    rw [Database.insertCallstack]
    cases Database.insertText db.callstacks callstacks.nextId callstack <;> rfl

/-! ### Contents and maps -/

end Recorder

/-- The contents of the database and the maps. -/
structure Records where
  db : Database
  types : Interner
  callstacks : Interner

/-- What saving an event does to contents and maps. -/
def Records.save (r : Records) (e : ProfilerEvent) : Records :=
  match e.type with
  | .alloc =>
    let type := r.types.intern r.db.objectTypes e.objType
    let callstack := r.callstacks.intern r.db.callstacks e.callstack
    ⟨{ r.db with
        objectTypes := type.2.2
        callstacks := callstack.2.2
        profilerEvents := r.db.profilerEvents ++ [storedRow type.2.1 callstack.2.1 e] },
      type.2.1, callstack.2.1⟩
  | .free =>
    { r with db := { r.db with
        profilerEvents := r.db.profilerEvents ++ [storedRow r.types r.callstacks e] } }

namespace Records

variable {r : Records} {es : List ProfilerEvent}

theorem frameStats_save (r : Records) (e : ProfilerEvent) :
    (r.save e).db.frameStats = r.db.frameStats := by
  cases he : e.type <;> simp only [save, he]

/-- Saving one event. -/
theorem recorded_save (h : Recorded r.types r.callstacks r.db es) (e : ProfilerEvent) :
    Recorded (r.save e).types (r.save e).callstacks (r.save e).db (es ++ [e]) := by
  cases he : e.type with
  | free =>
    have hknown : Known r.types r.callstacks e := fun h => by rw [he] at h; cases h
    simp only [save, he]
    exact h.append (.refl _) (.refl _) hknown rfl h.types h.callstacks (Nat.le_succ _)
      (Nat.le_succ _)
  | alloc =>
    have htype := Interner.lookup_intern r.types r.db.objectTypes e.objType
    have hcallstack := Interner.lookup_intern r.callstacks r.db.callstacks e.callstack
    obtain ⟨ht, htl⟩ := h.types.intern e.objType
    obtain ⟨hc, hcl⟩ := h.callstacks.intern e.callstack
    have hknown : Known (r.types.intern r.db.objectTypes e.objType).2.1
        (r.callstacks.intern r.db.callstacks e.callstack).2.1 e :=
      fun _ => ⟨Dict.mem_iff_lookup.2 ⟨_, htype⟩, Dict.mem_iff_lookup.2 ⟨_, hcallstack⟩⟩
    simp only [save, he]
    exact h.append (Interner.le_intern _ _ _) (Interner.le_intern _ _ _) hknown rfl ht hc htl hcl

/-- Saving the events of a list, one after the other. -/
theorem recorded_foldl_save (h : Recorded r.types r.callstacks r.db es) (l : List ProfilerEvent) :
    Recorded (l.foldl save r).types (l.foldl save r).callstacks (l.foldl save r).db (es ++ l) ∧
      (l.foldl save r).db.frameStats = r.db.frameStats := by
  induction l generalizing r es with
  | nil => exact ⟨by simpa using h, rfl⟩
  | cons e l ih =>
    obtain ⟨hrec, hstats⟩ := ih (recorded_save h e)
    rw [List.foldl_cons]
    exact ⟨by simpa using hrec, hstats.trans (frameStats_save r e)⟩

end Records

namespace Recorder

theorem saveEvent_record (d : Recorder) (rollback : Option Database) (r : Records)
    (e : ProfilerEvent) :
    (d.record ⟨r.db, rollback, []⟩ r.types r.callstacks).saveEvent e =
      d.record ⟨(r.save e).db, rollback, []⟩ (r.save e).types (r.save e).callstacks := by
  cases he : e.type with
  | free =>
    simp only [saveEvent, Records.save, he, query_record, storedRow]
    rfl
  | alloc =>
    have htype := Interner.lookup_intern r.types r.db.objectTypes e.objType
    have hcallstack := Interner.lookup_intern r.callstacks r.db.callstacks e.callstack
    simp only [saveEvent, Records.save, he, getOrCreateTypeId_record,
      getOrCreateCallstackId_record, query_record, storedRow, htype, hcallstack]
    rfl

theorem foldl_saveEvent_record (d : Recorder) (rollback : Option Database) (r : Records)
    (l : List ProfilerEvent) :
    l.foldl saveEvent (d.record ⟨r.db, rollback, []⟩ r.types r.callstacks) =
      d.record ⟨(l.foldl Records.save r).db, rollback, []⟩ (l.foldl Records.save r).types
        (l.foldl Records.save r).callstacks := by
  induction l generalizing r with
  | nil => rfl
  | cons e l ih => rw [List.foldl_cons, saveEvent_record, ih, List.foldl_cons]

/-- **What `save_frame_events` does**, once there is a frame. -/
theorem saveFrameEvents_record {d : Recorder} {db : Database} (hdb : d.db = some { db := db })
    (hframe : d.prevFrame ≠ noFrame) :
    let r := d.frameEvents.foldl Records.save ⟨db, d.types, d.callstacks⟩
    d.saveFrameEvents = d.clearFrameEvents.record
      { db := { r.db with
          frameStats := r.db.frameStats.insert (DbValue.uint64 d.prevFrame).bind d.currentStats } }
      r.types r.callstacks := by
  have hbegin : d.beginTransaction = d.record ⟨db, some db, []⟩ d.types d.callstacks := by
    rw [beginTransaction, hdb]
    rfl
  rw [saveFrameEvents, if_neg hframe, hbegin,
    foldl_saveEvent_record d (some db) ⟨db, d.types, d.callstacks⟩]
  rfl

/-- **The buffer becomes rows, and the frame gets its statistics.** -/
theorem saveFrameEvents_spec {d : Recorder} {db : Database} {es : List ProfilerEvent}
    (hdb : d.db = some { db := db }) (h : Recorded d.types d.callstacks db es)
    (hframe : d.prevFrame ≠ noFrame) :
    ∃ db' types' callstacks',
      d.saveFrameEvents = d.clearFrameEvents.record { db := db' } types' callstacks' ∧
      Recorded types' callstacks' db' (es ++ d.frameEvents) ∧
      db'.frameStats =
        db.frameStats.insert (DbValue.uint64 d.prevFrame).bind d.currentStats := by
  obtain ⟨hrec, hstats⟩ :=
    Records.recorded_foldl_save (r := ⟨db, d.types, d.callstacks⟩) h d.frameEvents
  refine ⟨_, _, _, saveFrameEvents_record hdb hframe, ?_, ?_⟩
  · exact ⟨hrec.events, hrec.known, hrec.types, hrec.callstacks, hrec.typesLength,
      hrec.callstacksLength⟩
  · rw [hstats]

/-! ### What only saving can change -/

section Holds

variable {I : Option Storage → Interner → Interner → Prop}
  (hsave : ∀ d : Recorder, I d.db d.types d.callstacks →
    I d.saveFrameEvents.db d.saveFrameEvents.types d.saveFrameEvents.callstacks)

include hsave

theorem holds_trySaveEvents {d : Recorder} (h : I d.db d.types d.callstacks) (frame : UInt64) :
    I (d.trySaveEvents frame).db (d.trySaveEvents frame).types
      (d.trySaveEvents frame).callstacks := by
  rw [trySaveEvents]
  split_ifs
  · exact hsave (d.updateFrameBounds frame) h
  · exact h

theorem holds_addEvent {d : Recorder} (h : I d.db d.types d.callstacks) (e : ProfilerEvent) :
    I (d.addEvent e).flush.db (d.addEvent e).flush.types (d.addEvent e).flush.callstacks := by
  have hadd : I (d.addEvent e).db (d.addEvent e).types (d.addEvent e).callstacks := by
    have htry := holds_trySaveEvents hsave h e.frame
    unfold addEvent pushEvent
    cases e.type <;> exact htry
  rw [flush]
  split_ifs
  · exact hsave _ hadd
  · exact hadd

theorem holds_submitLastEvents {d : Recorder} (h : I d.db d.types d.callstacks) :
    I d.submitLastEvents.db d.submitLastEvents.types d.submitLastEvents.callstacks := by
  unfold submitLastEvents
  cases d.frameEvents with
  | nil => exact h
  | cons e l => exact holds_trySaveEvents hsave h e.frame

end Holds

end Recorder

end Owlcat
