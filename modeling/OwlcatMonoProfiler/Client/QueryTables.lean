import OwlcatMonoProfiler.Client.Queries

/-!
# The queries on the tables of a database

What the texts of `db_queries.cpp` do to tables that have the rows of a `Database`, against the
functions on `Database`.

* `Represents`: the tables of a database;
* `Given`: the parameters of a query have the values of a call;
* `insertRow_texts`, `insertRow_stats`, `insertRow_events`: a row is inserted;
* `Represents.insertType`, …, `Represents.selectMinMaxFrame`: one theorem for each text.
-/

namespace Owlcat

open Cursor (ofInt)

/-! ### Databases as tables -/

namespace Tables

/-- A row of `ProfilerEvents` with its id; ids count the rows. -/
def eventRow (p : EventRow × ℕ) : List SqlValue :=
  [.integer (Int64.ofNat p.2), .integer p.1.eventTypeId, ofInt p.1.typeId, .integer p.1.address,
    .integer p.1.size, .integer p.1.frame, ofInt p.1.callstackId]

def statsRow (e : StatsEntry) : List SqlValue :=
  [.integer e.1, .integer e.2.allocs, .integer e.2.frees, .integer e.2.size]

def textRow (e : Sigma fun _ : Int64 => List UInt8) : List SqlValue := [.integer e.1, .text e.2]

/-- The tables have the rows of a database. -/
structure Represents (tables : Tables) (db : Database) : Prop where
  profilerEvents : tables "ProfilerEvents" = (db.profilerEvents.zipIdx 1).map eventRow
  frameStats : tables "FrameStats" = (byKey db.frameStats).map statsRow
  objectTypes : tables "ObjectTypes" = (byKey db.objectTypes).map textRow
  callstacks : tables "Callstacks" = (byKey db.callstacks).map textRow

/-! ### Inserting by a key -/

section Keys

variable {υ : Type}

/-- A row goes to the place of its key. -/
theorem byKey_insert (k : Int64) (v : υ) (m : Dict Int64 υ) :
    byKey (m.insert k v) =
      ((byKey m).filter fun e => e.1 ≠ k).orderedInsert (fun x y => x.1 ≤ y.1) ⟨k, v⟩ := by
  have := Sorting.isTrans_key fun e : Sigma fun _ : Int64 => υ => e.1
  have := Sorting.total_key fun e : Sigma fun _ : Int64 => υ => e.1
  rw [byKey, byKey, Dict.entries_insert, List.insertionSort_cons, Sorting.filter_insertionSort]

theorem mem_byKey {m : Dict Int64 υ} {e : Sigma fun _ : Int64 => υ} :
    e ∈ byKey m ↔ m.lookup e.1 = some e.2 := by
  rw [byKey, List.mem_insertionSort, ← AList.mem_lookup_iff]
  rfl

theorem filter_byKey_of_notMem {m : Dict Int64 υ} {k : Int64} (hk : k ∉ m) :
    ((byKey m).filter fun e => e.1 ≠ k) = byKey m := by
  refine List.filter_eq_self.2 fun e he => ?_
  have hne : e.1 ≠ k := fun hek => hk (hek ▸ Dict.mem_iff_lookup.2 ⟨e.2, mem_byKey.1 he⟩)
  simpa using hne

end Keys

/-! ### Texts -/

section Texts

variable {table id text : String}

theorem valueIn_id (e : Sigma fun _ : Int64 => List UInt8) :
    valueIn (textsTable table id text) (textRow e) id = .integer e.1 := by
  simp [valueIn, columnValue, textsTable, textRow]

theorem valueIn_text (hne : id ≠ text) (e : Sigma fun _ : Int64 => List UInt8) :
    valueIn (textsTable table id text) (textRow e) text = .text e.2 := by
  simp [valueIn, columnValue, textsTable, textRow, hne]

theorem keyIn_textRow (e : Sigma fun _ : Int64 => List UInt8) :
    keyIn (textsTable table id text) (textRow e) = e.1 := by
  have hkey : (textsTable table id text).columns.find? Sql.ColumnDef.isKey =
      some ⟨id, "INTEGER", true, true, false⟩ := rfl
  rw [keyIn, hkey, Option.elim_some, intIn, valueIn_id]
  rfl

theorem conflicts_textRow (hne : id ≠ text) (e e' : Sigma fun _ : Int64 => List UInt8) :
    conflicts (textsTable table id text) (textRow e) (textRow e') = true ↔
      e'.1 = e.1 ∨ e'.2 = e.2 := by
  have hcolumns : (textsTable table id text).columns =
      [⟨id, "INTEGER", true, true, false⟩, ⟨text, "TEXT", false, true, true⟩] := rfl
  rw [conflicts, hcolumns]
  simp only [List.any_cons, List.any_nil, valueIn_id, valueIn_text hne]
  simp [eq_comm (a := e'.1), eq_comm (a := e'.2)]

/-- **`INSERT` into a table of texts.** -/
theorem insertRow_texts (hne : id ≠ text) {value : String → SqlValue} {k : Int64}
    {s : List UInt8} {idName textName : String} (hk : value idName = .integer k)
    (hs : value textName = .text s) (m : Dict Int64 (List UInt8)) :
    insertRow (textsTable table id text) value
        ⟨false, table, [id, text], [.parameter idName, .parameter textName]⟩
        ((byKey m).map textRow) =
      if k ∈ m ∨ s ∈ Dict.values m then none else some ((byKey (m.insert k s)).map textRow) := by
  have hrow : (textsTable table id text).columns.map (newValue (textsTable table id text) value
      ⟨false, table, [id, text], [.parameter idName, .parameter textName]⟩
      ((byKey m).map textRow)) = textRow ⟨k, s⟩ := by
    simp [textsTable, newValue, operandValue, textRow, hk, hs, hne]
  have htype : ((textsTable table id text).columns.zip (textRow ⟨k, s⟩)).all
      (fun p => hasType p.1 p.2) = true := by
    simp [textsTable, textRow, hasType, isInteger]
  have hconflict :
      (∃ e ∈ byKey m, conflicts (textsTable table id text) (textRow ⟨k, s⟩) (textRow e)) ↔
        k ∈ m ∨ s ∈ Dict.values m := by
    simp only [conflicts_textRow hne, mem_byKey, Dict.mem_iff_lookup, Dict.mem_values]
    constructor
    · rintro ⟨⟨k', s'⟩, hlookup, rfl | rfl⟩
      · exact .inl ⟨s', hlookup⟩
      · exact .inr ⟨k', hlookup⟩
    · rintro (⟨s', hlookup⟩ | ⟨k', hlookup⟩)
      · exact ⟨⟨k, s'⟩, hlookup, .inl rfl⟩
      · exact ⟨⟨k', s⟩, hlookup, .inr rfl⟩
  rw [insertRow_map (r := ⟨k, s⟩) hrow htype]
  simp only [hconflict, true_and]
  split
  · rfl
  · next hnone =>
    rw [not_or] at hnone
    have hkeep : ((byKey m).filter fun e =>
        !conflicts (textsTable table id text) (textRow ⟨k, s⟩) (textRow e)) = byKey m := by
      refine List.filter_eq_self.2 fun e he => ?_
      have hno : ¬conflicts (textsTable table id text) (textRow ⟨k, s⟩) (textRow e) = true :=
        fun hc => (hconflict.1 ⟨e, he, hc⟩).elim hnone.1 hnone.2
      simpa using hno
    simp only [hkeep, keyIn_textRow, byKey_insert, filter_byKey_of_notMem hnone.1]

end Texts

/-! ### Statistics -/

section Stats

theorem valueIn_frame (e : StatsEntry) :
    valueIn statsTable (statsRow e) "frame" = .integer e.1 := by
  simp [valueIn, columnValue, statsTable, statsRow]

theorem intIn_frame (e : StatsEntry) : intIn statsTable (statsRow e) "frame" = e.1 := by
  rw [intIn, valueIn_frame]
  rfl

theorem keyIn_statsRow (e : StatsEntry) : keyIn statsTable (statsRow e) = e.1 := by
  have hkey : statsTable.columns.find? Sql.ColumnDef.isKey =
      some ⟨"frame", "INTEGER", true, true, false⟩ := rfl
  rw [keyIn, hkey, Option.elim_some, intIn_frame]

theorem conflicts_statsRow (e e' : StatsEntry) :
    conflicts statsTable (statsRow e) (statsRow e') = decide (e'.1 = e.1) := by
  have hkey : statsTable.columns.filter (fun d => d.isKey || d.unique) =
      [⟨"frame", "INTEGER", true, true, false⟩] := rfl
  have hany : conflicts statsTable (statsRow e) (statsRow e') =
      (statsTable.columns.filter fun d => d.isKey || d.unique).any fun d =>
        valueIn statsTable (statsRow e) d.name ≠ .null &&
          valueIn statsTable (statsRow e) d.name = valueIn statsTable (statsRow e') d.name := by
    rw [conflicts, List.any_filter]
    simp only [Bool.and_assoc]
  rw [hany, hkey]
  simp [valueIn_frame, eq_comm (a := e'.1)]

/-- **`INSERT OR REPLACE INTO FrameStats`.** -/
theorem insertRow_stats {value : String → SqlValue} {k : Int64} {r : StatsRow}
    (hk : value "$frame" = .integer k) (hallocs : value "$allocs" = .integer r.allocs)
    (hfrees : value "$frees" = .integer r.frees) (hsize : value "$size" = .integer r.size)
    (m : Dict Int64 StatsRow) :
    insertRow statsTable value
        ⟨true, "FrameStats", ["frame", "allocs", "frees", "size"],
          [.parameter "$frame", .parameter "$allocs", .parameter "$frees", .parameter "$size"]⟩
        ((byKey m).map statsRow) =
      some ((byKey (m.insert k r)).map statsRow) := by
  have hrow : statsTable.columns.map (newValue statsTable value
      ⟨true, "FrameStats", ["frame", "allocs", "frees", "size"],
        [.parameter "$frame", .parameter "$allocs", .parameter "$frees", .parameter "$size"]⟩
      ((byKey m).map statsRow)) = statsRow ⟨k, r⟩ := by
    simp [statsTable, newValue, operandValue, statsRow, hk, hallocs, hfrees, hsize]
  have htype : (statsTable.columns.zip (statsRow ⟨k, r⟩)).all (fun p => hasType p.1 p.2) =
      true := by
    simp [statsTable, statsRow, hasType, isInteger]
  rw [insertRow_map (r := ⟨k, r⟩) hrow htype, if_neg fun h => Bool.noConfusion h.1]
  have hkeep : ((byKey m).filter fun e =>
      !conflicts statsTable (statsRow ⟨k, r⟩) (statsRow e)) =
      (byKey m).filter fun e => e.1 ≠ k := by
    refine List.filter_congr fun e _ => ?_
    rw [conflicts_statsRow]
    simp
  simp only [hkeep, keyIn_statsRow, byKey_insert]

end Stats

/-! ### Events -/

section Events

theorem keyIn_eventRow (p : EventRow × ℕ) :
    keyIn eventsTable (eventRow p) = Int64.ofNat p.2 := by
  have hkey : eventsTable.columns.find? Sql.ColumnDef.isKey =
      some ⟨"event_id", "INTEGER", true, true, false⟩ := rfl
  rw [keyIn, hkey, Option.elim_some]
  simp [intIn, valueIn, columnValue, eventsTable, eventRow, SqlValue.int?]

theorem conflicts_eventRow (p p' : EventRow × ℕ) :
    conflicts eventsTable (eventRow p) (eventRow p') =
      decide (Int64.ofNat p.2 = Int64.ofNat p'.2) := by
  have hkey : eventsTable.columns.filter (fun d => d.isKey || d.unique) =
      [⟨"event_id", "INTEGER", true, true, false⟩] := rfl
  have hany : conflicts eventsTable (eventRow p) (eventRow p') =
      (eventsTable.columns.filter fun d => d.isKey || d.unique).any fun d =>
        valueIn eventsTable (eventRow p) d.name ≠ .null &&
          valueIn eventsTable (eventRow p) d.name =
            valueIn eventsTable (eventRow p') d.name := by
    rw [conflicts, List.any_filter]
    simp only [Bool.and_assoc]
  rw [hany, hkey]
  simp [valueIn, columnValue, eventsTable, eventRow]

/-- The ids of the rows. -/
theorem mem_zipIdx_one {l : List EventRow} {p : EventRow × ℕ} (hp : p ∈ l.zipIdx 1) :
    1 ≤ p.2 ∧ p.2 ≤ l.length := by
  obtain ⟨hle, hlt, -⟩ := List.mem_zipIdx hp
  omega

theorem ofNat_inj_of_lt {m n : ℕ} (hm : m < 2 ^ 63) (hn : n < 2 ^ 63) :
    Int64.ofNat m = Int64.ofNat n ↔ m = n := by
  rw [← Int64.toInt_inj, Int64.toInt_ofNat_of_lt hm, Int64.toInt_ofNat_of_lt hn, Nat.cast_inj]

theorem zipIdx_concat (l : List EventRow) (row : EventRow) :
    (l ++ [row]).zipIdx 1 = l.zipIdx 1 ++ [(row, l.length + 1)] := by
  rw [List.zipIdx_append, Nat.add_comm 1]
  rfl

/-- The next id. -/
theorem newKey_events {l : List EventRow} (hroom : l.length + 1 < 2 ^ 63) :
    newKey eventsTable ((l.zipIdx 1).map eventRow) = .integer (Int64.ofNat (l.length + 1)) := by
  rcases l.eq_nil_or_concat with rfl | ⟨l', row, rfl⟩
  · rfl
  · rw [List.concat_eq_append, List.length_append, List.length_singleton] at hroom ⊢
    have hmax : Int64.ofNat (l'.length + 1) ≠ Int64.maxValue := fun h => by
      have hmax : Int64.maxValue = Int64.ofNat (2 ^ 63 - 1) := rfl
      rw [hmax, ofNat_inj_of_lt (by omega) (by omega)] at h
      omega
    rw [newKey, zipIdx_concat, List.map_append, List.map_singleton, List.getLast?_concat]
    dsimp only
    rw [keyIn_eventRow, if_neg hmax]
    exact congrArg SqlValue.integer (Int64.ofNat_add (l'.length + 1) 1).symm

/-- **`INSERT INTO ProfilerEvents`**, for a command whose values are those of a row. -/
theorem insertRow_events {value : String → SqlValue} {i : Sql.Insert} {row : EventRow}
    {l : List EventRow} (hroom : l.length + 1 < 2 ^ 63)
    (hrow : eventsTable.columns.map
      (newValue eventsTable value i ((l.zipIdx 1).map eventRow)) =
        eventRow (row, l.length + 1)) :
    insertRow eventsTable value i ((l.zipIdx 1).map eventRow) =
      some (((l ++ [row]).zipIdx 1).map eventRow) := by
  have htype : (eventsTable.columns.zip (eventRow (row, l.length + 1))).all
      (fun p => hasType p.1 p.2) = true := by
    cases htypeId : row.typeId <;> cases hstack : row.callstackId <;>
      simp [eventsTable, eventRow, hasType, isInteger, ofInt, htypeId, hstack]
  have hnew : ∀ p ∈ l.zipIdx 1, Int64.ofNat p.2 < Int64.ofNat (l.length + 1) := fun p hp => by
    obtain ⟨-, hle⟩ := mem_zipIdx_one hp
    rw [Int64.lt_iff_toInt_lt, Int64.toInt_ofNat_of_lt (by omega),
      Int64.toInt_ofNat_of_lt hroom]
    omega
  have hconflict : ∀ p ∈ l.zipIdx 1,
      conflicts eventsTable (eventRow (row, l.length + 1)) (eventRow p) = false := fun p hp => by
    rw [conflicts_eventRow, decide_eq_false_iff_not]
    exact fun h => Int64.lt_irrefl (h ▸ hnew p hp)
  have hkeep : ((l.zipIdx 1).filter fun p =>
      !conflicts eventsTable (eventRow (row, l.length + 1)) (eventRow p)) = l.zipIdx 1 :=
    List.filter_eq_self.2 fun p hp => by rw [hconflict p hp]; rfl
  rw [insertRow_map (r := (row, l.length + 1)) hrow htype, if_neg, hkeep, zipIdx_concat,
    Sorting.orderedInsert_eq_append]
  · intro p hp hle
    rw [keyIn_eventRow, keyIn_eventRow] at hle
    exact Int64.not_le.2 (hnew p hp) hle
  · rintro ⟨-, p, hp, hc⟩
    rw [hconflict p hp] at hc
    cases hc

end Events

end Tables

/-! ### What the texts do -/

/-- The parameters of a query have the values of a call. -/
def Given (q : QueryId) (params : List (String × DbData)) (value : String → SqlValue) : Prop :=
  ∀ name ∈ q.parameters, ∀ p ∈ params, p.1 = snip name → ∀ v, p.2.bind 0 = some v →
    value name = v.value

section Given

variable {q : QueryId} {params : List (String × DbData)} {value : String → SqlValue}
  {name : String}

theorem Given.int (h : Given q params value) (k : String) (v : DbValue)
    (hmem : (k, .int v) ∈ params) (hname : name ∈ q.parameters) (hk : k = snip name) :
    value name = .integer v.bind :=
  h name hname _ hmem hk _ rfl

theorem Given.str (h : Given q params value) (k : String) (text : List UInt8)
    (hmem : (k, .str text) ∈ params) (hname : name ∈ q.parameters) (hk : k = snip name) :
    value name = .text text :=
  h name hname _ hmem hk _ rfl

/-- The two ends of a window. -/
theorem Given.window (hq : q.parameters = ["$from", "$to"]) {fromFrame toFrame : UInt64}
    (h : Given q [Queries.uint64 "from" fromFrame, Queries.uint64 "to" toFrame] value) :
    value "$from" = .integer (DbValue.uint64 fromFrame).bind ∧
      value "$to" = .integer (DbValue.uint64 toFrame).bind :=
  ⟨h.int "from" (.uint64 fromFrame) (by simp [Queries.uint64]) (by simp [hq]) (by decide),
    h.int "to" (.uint64 toFrame) (by simp [Queries.uint64]) (by simp [hq]) (by decide)⟩

end Given

namespace Tables

open Queries (uint64)

/-- What a query does to tables, against what a statement does to their database. -/
abbrev Agree : Option (List (List SqlValue) × Tables) → Option Database → Prop :=
  Option.Rel fun r db => r.1 = [] ∧ Represents r.2 db

section Runs

variable {tables : Tables} {db : Database} {value : String → SqlValue}

/-- `INSERT` into a table of texts. -/
theorem run_insertText {table id text : String} (hne : id ≠ text) {k : UInt64} {s : List UInt8}
    {idName textName : String} (hk : value idName = .integer (DbValue.uint64 k).bind)
    (hs : value textName = .text s) {m : Dict Int64 (List UInt8)}
    (hrows : tables table = (byKey m).map textRow) :
    run (textsTable table id text) value tables (.insert
        ⟨false, table, [id, text], [.parameter idName, .parameter textName]⟩) =
      (Database.insertText m k s).map fun m =>
        ([], Function.update tables table ((byKey m).map textRow)) := by
  show (insertRow (textsTable table id text) value
    ⟨false, table, [id, text], [.parameter idName, .parameter textName]⟩ (tables table)).map _ = _
  rw [hrows, insertRow_texts hne hk hs, Database.insertText]
  split <;> rfl

theorem Represents.insertType (h : Represents tables db) {type : List UInt8} {id : UInt64}
    (hvalue : Given .insertType [uint64 "id" id, ("type", .str type)] value) :
    Agree (run QueryId.insertType.table value tables QueryId.insertType.command)
      (db.insertType type id) := by
  have hid : value "$id" = _ :=
    hvalue.int "id" (.uint64 id) (by simp [uint64]) (by decide) (by decide)
  have htype : value "$type" = _ := hvalue.str "type" type (by simp) (by decide) (by decide)
  have hrun : run QueryId.insertType.table value tables QueryId.insertType.command = _ :=
    run_insertText (by decide) hid htype h.objectTypes
  rw [hrun, Database.insertType]
  cases Database.insertText db.objectTypes id type with
  | none => exact .none
  | some m =>
    exact .some ⟨rfl,
      { profilerEvents := by simpa using h.profilerEvents
        frameStats := by simpa using h.frameStats
        objectTypes := by simp
        callstacks := by simpa using h.callstacks }⟩

theorem Represents.insertCallstack (h : Represents tables db) {callstack : List UInt8}
    {id : UInt64}
    (hvalue : Given .insertCallstack [uint64 "id" id, ("stack", .str callstack)] value) :
    Agree (run QueryId.insertCallstack.table value tables QueryId.insertCallstack.command)
      (db.insertCallstack callstack id) := by
  have hid : value "$id" = _ :=
    hvalue.int "id" (.uint64 id) (by simp [uint64]) (by decide) (by decide)
  have hstack : value "$stack" = _ :=
    hvalue.str "stack" callstack (by simp) (by decide) (by decide)
  have hrun : run QueryId.insertCallstack.table value tables QueryId.insertCallstack.command = _ :=
    run_insertText (by decide) hid hstack h.callstacks
  rw [hrun, Database.insertCallstack]
  cases Database.insertText db.callstacks id callstack with
  | none => exact .none
  | some m =>
    exact .some ⟨rfl,
      { profilerEvents := by simpa using h.profilerEvents
        frameStats := by simpa using h.frameStats
        objectTypes := by simpa using h.objectTypes
        callstacks := by simp }⟩

theorem Represents.insertFrameStats (h : Represents tables db) {frame allocs frees : UInt64}
    {size : Int64}
    (hvalue : Given .insertFrameStats [uint64 "frame" frame, uint64 "allocs" allocs,
      uint64 "frees" frees, ("size", .int (.int64 size))] value) :
    Agree (run QueryId.insertFrameStats.table value tables QueryId.insertFrameStats.command)
      (db.insertFrameStats frame allocs frees size) := by
  have hframe : value "$frame" = _ :=
    hvalue.int "frame" (.uint64 frame) (by simp [uint64]) (by decide) (by decide)
  have hallocs : value "$allocs" = _ :=
    hvalue.int "allocs" (.uint64 allocs) (by simp [uint64]) (by decide) (by decide)
  have hfrees : value "$frees" = _ :=
    hvalue.int "frees" (.uint64 frees) (by simp [uint64]) (by decide) (by decide)
  have hsize : value "$size" = _ :=
    hvalue.int "size" (.int64 size) (by simp [uint64]) (by decide) (by decide)
  show Agree ((insertRow statsTable value
    ⟨true, "FrameStats", ["frame", "allocs", "frees", "size"],
      [.parameter "$frame", .parameter "$allocs", .parameter "$frees", .parameter "$size"]⟩
    (tables "FrameStats")).map fun rows => ([], Function.update tables "FrameStats" rows)) _
  rw [h.frameStats, insertRow_stats (r := ⟨(DbValue.uint64 allocs).bind,
    (DbValue.uint64 frees).bind, (DbValue.int64 size).bind⟩) hframe hallocs hfrees hsize]
  refine .some ⟨rfl, ?_⟩
  exact
    { profilerEvents := by simpa using h.profilerEvents
      frameStats := by simp
      objectTypes := by simpa using h.objectTypes
      callstacks := by simpa using h.callstacks }

/-- A row of events is appended. -/
theorem Represents.append (h : Represents tables db) {i : Sql.Insert} {row : EventRow}
    (hroom : db.profilerEvents.length + 1 < 2 ^ 63)
    (hrow : eventsTable.columns.map
      (newValue eventsTable value i ((db.profilerEvents.zipIdx 1).map eventRow)) =
        eventRow (row, db.profilerEvents.length + 1)) :
    Agree (run eventsTable value tables (.insert i))
      (some { db with profilerEvents := db.profilerEvents ++ [row] }) := by
  show Agree ((insertRow eventsTable value i (tables "ProfilerEvents")).map fun rows =>
    ([], Function.update tables "ProfilerEvents" rows)) _
  rw [h.profilerEvents, insertRow_events hroom hrow]
  refine .some ⟨rfl, ?_⟩
  exact
    { profilerEvents := by simp
      frameStats := by simpa using h.frameStats
      objectTypes := by simpa using h.objectTypes
      callstacks := by simpa using h.callstacks }

theorem Represents.insertAllocEvent (h : Represents tables db)
    (hroom : db.profilerEvents.length + 1 < 2 ^ 63)
    {frame addr size typeId callstackId : UInt64}
    (hvalue : Given .insertAllocEvent [uint64 "type_id" typeId, uint64 "address" addr,
      uint64 "size" size, uint64 "frame" frame, uint64 "callstack_id" callstackId] value) :
    Agree (run QueryId.insertAllocEvent.table value tables QueryId.insertAllocEvent.command)
      (db.insertAllocEvent frame addr size typeId callstackId) := by
  have htype : value "$type_id" = _ :=
    hvalue.int "type_id" (.uint64 typeId) (by simp [uint64]) (by decide) (by decide)
  have haddr : value "$address" = _ :=
    hvalue.int "address" (.uint64 addr) (by simp [uint64]) (by decide) (by decide)
  have hsize : value "$size" = _ :=
    hvalue.int "size" (.uint64 size) (by simp [uint64]) (by decide) (by decide)
  have hframe : value "$frame" = _ :=
    hvalue.int "frame" (.uint64 frame) (by simp [uint64]) (by decide) (by decide)
  have hstack : value "$callstack_id" = _ :=
    hvalue.int "callstack_id" (.uint64 callstackId) (by simp [uint64]) (by decide) (by decide)
  refine h.append hroom ?_
  have hkey := newKey_events hroom
  simp only [eventsTable] at hkey
  simp [eventsTable, newValue, operandValue, eventRow, htype, haddr, hsize, hframe, hstack,
    hkey, ofInt]

theorem Represents.insertFreeEvent (h : Represents tables db)
    (hroom : db.profilerEvents.length + 1 < 2 ^ 63) {frame addr : UInt64} {size : UInt32}
    (hvalue : Given .insertFreeEvent [uint64 "address" addr, uint64 "frame" frame,
      ("size", .int (.uint32 size))] value) :
    Agree (run QueryId.insertFreeEvent.table value tables QueryId.insertFreeEvent.command)
      (db.insertFreeEvent frame addr size) := by
  have haddr : value "$address" = _ :=
    hvalue.int "address" (.uint64 addr) (by simp [uint64]) (by decide) (by decide)
  have hframe : value "$frame" = _ :=
    hvalue.int "frame" (.uint64 frame) (by simp [uint64]) (by decide) (by decide)
  have hsize : value "$size" = _ :=
    hvalue.int "size" (.uint32 size) (by simp [uint64]) (by decide) (by decide)
  refine h.append hroom ?_
  have hkey := newKey_events hroom
  simp only [eventsTable] at hkey
  simp [eventsTable, newValue, operandValue, eventRow, haddr, hsize, hframe, hkey, ofInt]

/-! ### What the texts find -/

/-- A command that selects columns. -/
theorem run_select {t : Sql.CreateTable} {c : Sql.Select} (hknown : comparable value c = true)
    (hcolumns : c.outputs.all isColumn = true) {ρ : Type} {f : ρ → List SqlValue} {l : List ρ}
    (hrows : tables t.name = l.map f) {p : ρ → Bool}
    (hp : ∀ r ∈ l, c.conditions.all (satisfies t value (f r)) = p r) :
    run t value tables (.select c) =
      some ((arrange c (fun column r => intIn t (f r) column) (l.filter p)).map fun r =>
        c.outputs.map (cell t (f r)), tables) := by
  rw [run, if_pos hknown, hrows, select_map hcolumns hp]

/-- A command that asks for functions of all rows. -/
theorem run_aggregate {t : Sql.CreateTable} {c : Sql.Select} (hknown : comparable value c = true)
    (hcolumns : c.outputs.all isColumn = false) {ρ : Type} {f : ρ → List SqlValue} {l : List ρ}
    (hrows : tables t.name = l.map f) {p : ρ → Bool}
    (hp : ∀ r ∈ l, c.conditions.all (satisfies t value (f r)) = p r) :
    run t value tables (.select c) =
      some ([c.outputs.map (aggregate t ((l.filter p).map f))], tables) := by
  rw [run, if_pos hknown, hrows, select_aggregate hcolumns hp]

theorem all_inWindow {t : Sql.CreateTable} {row : List SqlValue} {fromFrame toFrame frame : Int64}
    (hfrom : value "$from" = .integer fromFrame) (hto : value "$to" = .integer toFrame)
    (hframe : valueIn t row "frame" = .integer frame) :
    QueryId.inWindow.all (satisfies t value row) =
      decide (fromFrame ≤ frame ∧ frame ≤ toFrame) := by
  simp [QueryId.inWindow, satisfies, compares, operandValue, hframe, hfrom, hto, SqlValue.int?]

theorem comparable_inWindow {c : Sql.Select} (hc : c.conditions = QueryId.inWindow)
    {fromFrame toFrame : Int64} (hfrom : value "$from" = .integer fromFrame)
    (hto : value "$to" = .integer toFrame) : comparable value c = true := by
  simp [comparable, hc, QueryId.inWindow, operandValue, hfrom, hto]

/-- The rows of a table of texts. -/
theorem run_texts {table id text : String} (hne : id ≠ text) {m : Dict Int64 (List UInt8)}
    (hrows : tables table = (byKey m).map textRow) :
    run (textsTable table id text) value tables
        (.select { outputs := [.column id, .column text], table := table }) =
      some ((byKey m).map textRow, tables) := by
  rw [run_select (p := fun _ => true) rfl rfl hrows fun _ _ => rfl, List.filter_true]
  refine congrArg (fun rows => some (rows, tables)) (List.map_congr_left fun e _ => ?_)
  simp only [List.map_cons, List.map_nil, cell, valueIn_id, valueIn_text hne]
  rfl

theorem Represents.selectTypes (h : Represents tables db) :
    run QueryId.selectTypes.table value tables QueryId.selectTypes.command =
      some ((byKey db.objectTypes).map textRow, tables) :=
  run_texts (by decide) h.objectTypes

theorem Represents.selectCallstacks (h : Represents tables db) :
    run QueryId.selectCallstacks.table value tables QueryId.selectCallstacks.command =
      some ((byKey db.callstacks).map textRow, tables) :=
  run_texts (by decide) h.callstacks

/-- The rows of the statistics that meet a condition, in the order of their frames. -/
theorem sort_byKey {υ : Type} (m : Dict Int64 υ) (p : (Sigma fun _ : Int64 => υ) → Bool) :
    ((byKey m).filter p).insertionSort (fun x y => x.1 ≤ y.1) =
      (m.entries.filter p).insertionSort fun x y => x.1 ≤ y.1 := by
  have := Sorting.isTrans_key fun e : Sigma fun _ : Int64 => υ => e.1
  have := Sorting.total_key fun e : Sigma fun _ : Int64 => υ => e.1
  rw [byKey, Sorting.filter_insertionSort]
  exact (List.pairwise_insertionSort _ _).insertionSort_eq

theorem Represents.selectStats (h : Represents tables db) {fromFrame toFrame : UInt64}
    (hvalue : Given .selectStats [uint64 "from" fromFrame, uint64 "to" toFrame] value) :
    run QueryId.selectStats.table value tables QueryId.selectStats.command =
      some ((db.selectStats fromFrame toFrame).map statsRow, tables) := by
  obtain ⟨hfrom, hto⟩ := hvalue.window rfl
  have htable : QueryId.selectStats.table = statsTable := rfl
  rw [htable]
  refine (run_select (comparable_inWindow rfl hfrom hto) rfl h.frameStats fun e _ =>
    all_inWindow hfrom hto (valueIn_frame e)).trans ?_
  have harrange := sort_byKey db.frameStats fun e =>
    decide ((DbValue.uint64 fromFrame).bind ≤ e.1 ∧ e.1 ≤ (DbValue.uint64 toFrame).bind)
  simp only [arrange, intIn_frame, Bool.false_eq_true, if_false, harrange]
  refine congrArg (fun rows => some (rows, tables)) (List.map_congr_left fun e _ => ?_)
  simp [cell, valueIn, columnValue, statsTable, statsRow]

theorem Represents.selectLastGoodSize (h : Represents tables db) {fromFrame : UInt64}
    (hvalue : Given .selectLastGoodSize [uint64 "from" fromFrame] value) :
    run QueryId.selectLastGoodSize.table value tables QueryId.selectLastGoodSize.command =
      some ((db.selectLastGoodSize fromFrame).toList.map fun size => [.integer size], tables) := by
  have hfrom : value "$from" = _ :=
    hvalue.int "from" (.uint64 fromFrame) (by simp [uint64]) (by decide) (by decide)
  have hp : ∀ e ∈ byKey db.frameStats,
      [(⟨"frame", .le, .parameter "$from"⟩ : Sql.Condition)].all
          (satisfies statsTable value (statsRow e)) =
        decide (e.1 ≤ (DbValue.uint64 fromFrame).bind) := by
    intro e _
    simp [satisfies, compares, operandValue, valueIn_frame, hfrom, SqlValue.int?]
  have hknown : comparable value ⟨[.column "size"], "FrameStats",
      [⟨"frame", .le, .parameter "$from"⟩], some ⟨"frame", true⟩, some 1⟩ = true := by
    simp [comparable, operandValue, hfrom]
  refine (run_select hknown rfl h.frameStats hp).trans ?_
  -- the latest row is the first one in descending order
  have hinj : ∀ x ∈ db.frameStats.entries.filter fun e =>
      decide (e.1 ≤ (DbValue.uint64 fromFrame).bind),
      ∀ y ∈ db.frameStats.entries.filter fun e =>
        decide (e.1 ≤ (DbValue.uint64 fromFrame).bind), x.1 = y.1 → x = y := by
    intro x hx y hy hxy
    have hx := AList.mem_lookup_iff.2 (List.mem_of_mem_filter hx)
    have hy := AList.mem_lookup_iff.2 (List.mem_of_mem_filter hy)
    rw [hxy] at hx
    exact Sigma.ext hxy (heq_of_eq (Option.mem_unique hx hy))
  have harrange := sort_byKey db.frameStats fun e =>
    decide (e.1 ≤ (DbValue.uint64 fromFrame).bind)
  simp only [arrange, intIn_frame, if_true, harrange,
    ← Sorting.insertionSort_reverse (fun e : StatsEntry => e.1) hinj, Database.selectLastGoodSize,
    List.take_one, Option.toList_map, List.map_map]
  refine congrArg (fun rows => some (rows, tables)) (List.map_congr_left fun e _ => ?_)
  simp [cell, valueIn, columnValue, statsTable, statsRow]

/-- The events that meet a condition, with their ids. -/
theorem map_filter_zipIdx (l : List EventRow) (p : EventRow → Bool) :
    ((l.zipIdx 1).filter fun x => p x.1).map Prod.fst = l.filter p := by
  have hfst : (l.zipIdx 1).map Prod.fst = l := List.zipIdx_map_fst ..
  conv_rhs => rw [← hfst, List.filter_map]
  rfl

theorem valueIn_eventFrame (p : EventRow × ℕ) :
    valueIn eventsTable (eventRow p) "frame" = .integer p.1.frame := by
  simp [valueIn, columnValue, eventsTable, eventRow]

theorem intIn_eventFrame (p : EventRow × ℕ) :
    intIn eventsTable (eventRow p) "frame" = p.1.frame := by
  rw [intIn, valueIn_eventFrame]
  rfl

/-- The order of events does not depend on their ids. -/
theorem map_sort_events (l : List (EventRow × ℕ)) :
    (l.insertionSort fun x y => x.1.frame ≤ y.1.frame).map Prod.fst =
      (l.map Prod.fst).insertionSort fun x y => x.frame ≤ y.frame :=
  List.map_insertionSort _ (fun x y : EventRow => x.frame ≤ y.frame) Prod.fst _
    fun _ _ _ _ => Iff.rfl

theorem Represents.selectAllocationTypeAndStack (h : Represents tables db) {address : UInt64}
    (hvalue : Given .selectAllocationTypeAndStack [uint64 "address" address] value) :
    run QueryId.selectAllocationTypeAndStack.table value tables
        QueryId.selectAllocationTypeAndStack.command =
      some ((db.selectAllocationTypeAndStack address).toList.map fun row =>
        [ofInt row.typeId, ofInt row.callstackId], tables) := by
  have haddr : value "$address" = _ :=
    hvalue.int "address" (.uint64 address) (by simp [uint64]) (by decide) (by decide)
  have hp : ∀ p ∈ db.profilerEvents.zipIdx 1,
      [(⟨"event_type_id", .eq, .number 1⟩ : Sql.Condition),
          ⟨"address", .eq, .parameter "$address"⟩].all
          (satisfies eventsTable value (eventRow p)) =
        decide (p.1.eventTypeId = 1 ∧ p.1.address = (DbValue.uint64 address).bind) := by
    intro p _
    simp [satisfies, compares, operandValue, valueIn, columnValue, eventsTable, eventRow, haddr,
      SqlValue.int?]
  have hknown : comparable value ⟨[.column "type_id", .column "callstack_id"], "ProfilerEvents",
      [⟨"event_type_id", .eq, .number 1⟩, ⟨"address", .eq, .parameter "$address"⟩],
      some ⟨"frame", true⟩, some 1⟩ = true := by
    simp [comparable, operandValue, haddr]
  refine (run_select hknown rfl h.profilerEvents hp).trans ?_
  simp only [arrange, intIn_eventFrame, if_true]
  have hrows : db.selectAllocationTypeAndStack address = _ :=
    congrArg List.getLast? ((map_sort_events _).trans (congrArg _ (map_filter_zipIdx
      db.profilerEvents fun row =>
        decide (row.eventTypeId = 1 ∧ row.address = (DbValue.uint64 address).bind)))).symm
  rw [hrows, List.getLast?_map, ← List.head?_reverse, Option.toList_map, ← List.take_one,
    List.map_map]
  refine congrArg (fun rows => some (rows, tables)) (List.map_congr_left fun p _ => ?_)
  simp [cell, valueIn, columnValue, eventsTable, eventRow]

/-- The events of a window with their ids, in the order of their frames. -/
def sortedWindow (fromFrame toFrame : UInt64) (db : Database) : List (EventRow × ℕ) :=
  ((db.profilerEvents.zipIdx 1).filter fun p =>
    decide ((DbValue.uint64 fromFrame).bind ≤ p.1.frame ∧
      p.1.frame ≤ (DbValue.uint64 toFrame).bind)).insertionSort
    fun x y => x.1.frame ≤ y.1.frame

theorem map_fst_sortedWindow (fromFrame toFrame : UInt64) (db : Database) :
    (sortedWindow fromFrame toFrame db).map Prod.fst = db.selectEvents fromFrame toFrame :=
  (map_sort_events _).trans (congrArg _ (map_filter_zipIdx db.profilerEvents fun row =>
    decide ((DbValue.uint64 fromFrame).bind ≤ row.frame ∧
      row.frame ≤ (DbValue.uint64 toFrame).bind)))

/-- A row of `select_events`. -/
def eventColumns (p : EventRow × ℕ) : List SqlValue :=
  [.integer p.1.eventTypeId, .integer (Int64.ofNat p.2), ofInt p.1.typeId, .integer p.1.address,
    .integer p.1.size, .integer p.1.frame, ofInt p.1.callstackId]

theorem Represents.selectEvents (h : Represents tables db) {fromFrame toFrame : UInt64}
    (hvalue : Given .selectEvents [uint64 "from" fromFrame, uint64 "to" toFrame] value) :
    run QueryId.selectEvents.table value tables QueryId.selectEvents.command =
      some ((sortedWindow fromFrame toFrame db).map eventColumns, tables) := by
  obtain ⟨hfrom, hto⟩ := hvalue.window rfl
  have htable : QueryId.selectEvents.table = eventsTable := rfl
  rw [htable]
  refine (run_select (comparable_inWindow rfl hfrom hto) rfl h.profilerEvents fun p _ =>
    all_inWindow hfrom hto (valueIn_eventFrame p)).trans ?_
  simp only [arrange, intIn_eventFrame, Bool.false_eq_true, if_false]
  refine congrArg (fun rows => some (rows, tables)) (List.map_congr_left fun p _ => ?_)
  simp [cell, valueIn, columnValue, eventsTable, eventRow, eventColumns]

theorem Represents.selectEventsCount (h : Represents tables db) {fromFrame toFrame : UInt64}
    (hvalue : Given .selectEventsCount [uint64 "from" fromFrame, uint64 "to" toFrame] value) :
    run QueryId.selectEventsCount.table value tables QueryId.selectEventsCount.command =
      some ([db.selectEventsCount fromFrame toFrame].map fun n => [.integer (Int64.ofNat n)],
        tables) := by
  obtain ⟨hfrom, hto⟩ := hvalue.window rfl
  refine (run_aggregate (comparable_inWindow rfl hfrom hto) rfl h.profilerEvents fun p _ =>
    all_inWindow hfrom hto (valueIn_eventFrame p)).trans ?_
  have hcount := congrArg List.length (map_filter_zipIdx db.profilerEvents fun row =>
    decide ((DbValue.uint64 fromFrame).bind ≤ row.frame ∧
      row.frame ≤ (DbValue.uint64 toFrame).bind))
  rw [List.length_map] at hcount
  simp only [List.map_cons, List.map_nil, aggregate, List.length_map, hcount,
    Database.selectEventsCount]

theorem Represents.selectMinMaxFrame (h : Represents tables db) :
    run QueryId.selectMinMaxFrame.table value tables QueryId.selectMinMaxFrame.command =
      some ([db.selectMinMaxFrame].map fun r => [ofInt r.1, ofInt r.2], tables) := by
  refine (run_aggregate (p := fun _ => true) rfl rfl h.profilerEvents fun _ _ => rfl).trans ?_
  have hframes : (((db.profilerEvents.zipIdx 1).filter fun _ => true).map eventRow).filterMap
      (fun row => (valueIn eventsTable row "frame").int?) =
        db.profilerEvents.map EventRow.frame := by
    have hfst : (db.profilerEvents.zipIdx 1).map Prod.fst = db.profilerEvents :=
      List.zipIdx_map_fst ..
    conv_rhs => rw [← hfst, List.map_map]
    rw [List.filter_true, List.filterMap_map]
    refine List.filterMap_eq_map_iff_forall_eq_some.2 fun p _ => ?_
    simp [valueIn, columnValue, eventsTable, eventRow, SqlValue.int?]
  have htable : QueryId.selectMinMaxFrame.table = eventsTable := rfl
  simp only [List.map_cons, List.map_nil, aggregate, htable, hframes, Database.selectMinMaxFrame]

end Runs

end Tables

end Owlcat
