import OwlcatMonoProfiler.Client.FrameStats
import OwlcatMonoProfiler.Client.Tables
import OwlcatMonoProfiler.Ui.SearchResultsData

/-!
# The queries of the client

`db_queries.cpp`, and the loops of `mono_profiler_client.cpp` over its cursors.  A query is a text
with named parameters and named columns; the rest of this development has functions on `Database` in
its place.

* `QueryId`: the queries, with `id` and `text` as in the source;
* `command`, `table`, `parameters`: what the texts say, `read_text`, `run_text`: that they do;
* `registerQueries`, `Queries.insertType`, …, `Queries.selectStats`: the functions;
* `RowReading`: what the bodies of the loops read from a row;
* `Call`: calls of these functions, for a connection with its statements and for a `Storage`.
-/

namespace Owlcat

/-! ### Texts -/

/-- The registered queries, in the order of `register_queries`, less one that is never called. -/
inductive QueryId
  | insertType
  | insertCallstack
  | selectTypes
  | selectCallstacks
  | selectLastGoodSize
  | selectAllocationTypeAndStack
  | insertAllocEvent
  | insertFreeEvent
  | insertFrameStats
  | selectMinMaxFrame
  | selectEvents
  | selectEventsCount
  | selectStats
  deriving DecidableEq

namespace QueryId

/-- `id_insert_type` and the others -/
def id : QueryId → String
  | .insertType => "insert_type"
  | .insertCallstack => "insert_callstack"
  | .selectTypes => "select_types"
  | .selectCallstacks => "select_callstacks"
  | .selectLastGoodSize => "select_last_good_size"
  | .selectAllocationTypeAndStack => "select_allocation_type_and_stack"
  | .insertAllocEvent => "insert_alloc_event"
  | .insertFreeEvent => "insert_free_event"
  | .insertFrameStats => "insert_frame_stats"
  | .selectMinMaxFrame => "select_min_max_frame"
  | .selectEvents => "select_events"
  | .selectEventsCount => "select_events_count"
  | .selectStats => "select_stats"

def text : QueryId → String
  | .insertType =>
    "INSERT INTO ObjectTypes (type_id, name)" ++
    "VALUES ($id, $type)"
  | .insertCallstack =>
    "INSERT INTO Callstacks (callstack_id, callstack)" ++
    "VALUES ($id, $stack)"
  | .selectTypes => "SELECT type_id, name FROM ObjectTypes"
  | .selectCallstacks => "SELECT callstack_id, callstack FROM Callstacks"
  | .selectLastGoodSize =>
    "SELECT size " ++
    "FROM FrameStats " ++
    "WHERE frame <= $from ORDER BY frame DESC LIMIT 1"
  | .selectAllocationTypeAndStack =>
    "SELECT type_id, callstack_id " ++
    "FROM ProfilerEvents " ++
    "WHERE event_type_id=1 AND address=$address ORDER BY frame DESC LIMIT 1"
  | .insertAllocEvent =>
    "INSERT INTO ProfilerEvents (event_type_id, type_id, address, size, frame, callstack_id)" ++
    "VALUES (1, $type_id, $address, $size, $frame, $callstack_id)"
  | .insertFreeEvent =>
    "INSERT INTO ProfilerEvents (event_type_id, address, frame, size)" ++
    "VALUES (2, $address, $frame, $size)"
  | .insertFrameStats =>
    "INSERT OR REPLACE INTO FrameStats (frame, allocs, frees, size)" ++
    "VALUES ($frame, $allocs, $frees, $size)"
  | .selectMinMaxFrame =>
    "SELECT MIN(frame) as min_frame, MAX(frame) AS max_frame FROM ProfilerEvents"
  | .selectEvents =>
    "SELECT event_type_id, event_id, type_id, address, size, frame, callstack_id " ++
    "FROM ProfilerEvents " ++
    "WHERE frame >= $from AND frame <= $to " ++
    "ORDER BY frame ASC"
  | .selectEventsCount =>
    "SELECT COUNT(*) AS count " ++
    "FROM ProfilerEvents " ++
    "WHERE frame >= $from AND frame <= $to "
  | .selectStats =>
    "SELECT frame, allocs, frees, size " ++
    "FROM FrameStats " ++
    "WHERE frame >= $from AND frame <= $to " ++
    "ORDER BY frame"

def all : List QueryId :=
  [.insertType, .insertCallstack, .selectTypes, .selectCallstacks, .selectLastGoodSize,
    .selectAllocationTypeAndStack, .insertAllocEvent, .insertFreeEvent, .insertFrameStats,
    .selectMinMaxFrame, .selectEvents, .selectEventsCount, .selectStats]

/-- The names of the columns of the result, `sqlite3_column_name`. -/
def columns (q : QueryId) : List String := Sql.columnNames q.text.toList

end QueryId

/-! ### What the texts say -/

namespace Tables

def eventsTable : Sql.CreateTable where
  name := "ProfilerEvents"
  columns :=
    [⟨"event_id", "INTEGER", true, true, false⟩, ⟨"event_type_id", "INT", false, true, false⟩,
      ⟨"type_id", "INT", false, false, false⟩, ⟨"address", "INT", false, true, false⟩,
      ⟨"size", "INT", false, false, false⟩, ⟨"frame", "INT", false, true, false⟩,
      ⟨"callstack_id", "INT", false, false, false⟩]

def statsTable : Sql.CreateTable where
  name := "FrameStats"
  columns :=
    [⟨"frame", "INTEGER", true, true, false⟩, ⟨"allocs", "INT", false, true, false⟩,
      ⟨"frees", "INT", false, true, false⟩, ⟨"size", "INT", false, true, false⟩]

/-- A table of texts. -/
def textsTable (table id text : String) : Sql.CreateTable where
  name := table
  columns := [⟨id, "INTEGER", true, true, false⟩, ⟨text, "TEXT", false, true, true⟩]

theorem schema_eq :
    schema =
      ⟨[eventsTable, statsTable, textsTable "ObjectTypes" "type_id" "name",
        textsTable "Callstacks" "callstack_id" "callstack"], [⟨"ProfilerEvents", "frame"⟩]⟩ := by
  rw [schema, migrationTexts, allMigrations]
  simp only [List.flatMap_cons, List.flatMap_nil, List.map_cons, List.map_nil, List.append_nil,
    CString.ofLit, String.toList_append, -String.reduceToList]
  repeat rw [String.toList_ofList]
  decide +kernel

end Tables

namespace QueryId

/-- `frame >= $from AND frame <= $to` -/
def inWindow : List Sql.Condition :=
  [⟨"frame", .ge, .parameter "$from"⟩, ⟨"frame", .le, .parameter "$to"⟩]

def command : QueryId → Sql.Command
  | .insertType =>
    .insert ⟨false, "ObjectTypes", ["type_id", "name"], [.parameter "$id", .parameter "$type"]⟩
  | .insertCallstack =>
    .insert ⟨false, "Callstacks", ["callstack_id", "callstack"],
      [.parameter "$id", .parameter "$stack"]⟩
  | .selectTypes =>
    .select { outputs := [.column "type_id", .column "name"], table := "ObjectTypes" }
  | .selectCallstacks =>
    .select { outputs := [.column "callstack_id", .column "callstack"], table := "Callstacks" }
  | .selectLastGoodSize =>
    .select
      { outputs := [.column "size"]
        table := "FrameStats"
        conditions := [⟨"frame", .le, .parameter "$from"⟩]
        order := some ⟨"frame", true⟩
        limit := some 1 }
  | .selectAllocationTypeAndStack =>
    .select
      { outputs := [.column "type_id", .column "callstack_id"]
        table := "ProfilerEvents"
        conditions :=
          [⟨"event_type_id", .eq, .number 1⟩, ⟨"address", .eq, .parameter "$address"⟩]
        order := some ⟨"frame", true⟩
        limit := some 1 }
  | .insertAllocEvent =>
    .insert ⟨false, "ProfilerEvents",
      ["event_type_id", "type_id", "address", "size", "frame", "callstack_id"],
      [.number 1, .parameter "$type_id", .parameter "$address", .parameter "$size",
        .parameter "$frame", .parameter "$callstack_id"]⟩
  | .insertFreeEvent =>
    .insert ⟨false, "ProfilerEvents", ["event_type_id", "address", "frame", "size"],
      [.number 2, .parameter "$address", .parameter "$frame", .parameter "$size"]⟩
  | .insertFrameStats =>
    .insert ⟨true, "FrameStats", ["frame", "allocs", "frees", "size"],
      [.parameter "$frame", .parameter "$allocs", .parameter "$frees", .parameter "$size"]⟩
  | .selectMinMaxFrame =>
    .select
      { outputs := [.min "frame" "min_frame", .max "frame" "max_frame"]
        table := "ProfilerEvents" }
  | .selectEvents =>
    .select
      { outputs :=
          [.column "event_type_id", .column "event_id", .column "type_id", .column "address",
            .column "size", .column "frame", .column "callstack_id"]
        table := "ProfilerEvents"
        conditions := inWindow
        order := some ⟨"frame", false⟩ }
  | .selectEventsCount =>
    .select { outputs := [.count "count"], table := "ProfilerEvents", conditions := inWindow }
  | .selectStats =>
    .select
      { outputs := [.column "frame", .column "allocs", .column "frees", .column "size"]
        table := "FrameStats"
        conditions := inWindow
        order := some ⟨"frame", false⟩ }

def table : QueryId → Sql.CreateTable
  | .insertType | .selectTypes => Tables.textsTable "ObjectTypes" "type_id" "name"
  | .insertCallstack | .selectCallstacks =>
    Tables.textsTable "Callstacks" "callstack_id" "callstack"
  | .selectLastGoodSize | .insertFrameStats | .selectStats => Tables.statsTable
  | _ => Tables.eventsTable

/-- The names of the parameters, in the order of the text. -/
def parameters : QueryId → List String
  | .insertType => ["$id", "$type"]
  | .insertCallstack => ["$id", "$stack"]
  | .selectLastGoodSize => ["$from"]
  | .selectAllocationTypeAndStack => ["$address"]
  | .insertAllocEvent => ["$type_id", "$address", "$size", "$frame", "$callstack_id"]
  | .insertFreeEvent => ["$address", "$frame", "$size"]
  | .insertFrameStats => ["$frame", "$allocs", "$frees", "$size"]
  | .selectEvents | .selectEventsCount | .selectStats => ["$from", "$to"]
  | .selectTypes | .selectCallstacks | .selectMinMaxFrame => []

theorem read_of_toList {text : String} {l : List Char} {c : Sql.Command} {names : List String}
    (hchars : text.toList = l)
    (hread : Sql.readCommand l = some c ∧ Sql.parameters l = some names) :
    Sql.readCommand text.toList = some c ∧ Sql.parameters text.toList = some names := by
  rwa [hchars]

theorem toList_append_eq {a b : String} {l m : List Char} (ha : a.toList = l)
    (hb : b.toList = m) : (a ++ b).toList = l ++ m := by
  rw [String.toList_append, ha, hb]

open String (toList_ofList) in
set_option maxRecDepth 2000 in
/-- What a text says, and the parameters it has. -/
theorem read_text (q : QueryId) :
    Sql.readCommand q.text.toList = some q.command ∧
      Sql.parameters q.text.toList = some q.parameters := by
  -- the characters of a literal are known without decoding it
  cases q with
  | selectTypes | selectCallstacks | selectMinMaxFrame =>
    exact read_of_toList toList_ofList (by decide +kernel)
  | insertType | insertCallstack | insertAllocEvent | insertFreeEvent | insertFrameStats =>
    exact read_of_toList (toList_append_eq toList_ofList toList_ofList) (by decide +kernel)
  | selectLastGoodSize | selectAllocationTypeAndStack | selectEventsCount =>
    exact read_of_toList
      (toList_append_eq (toList_append_eq toList_ofList toList_ofList) toList_ofList)
      (by decide +kernel)
  | selectEvents | selectStats =>
    exact read_of_toList
      (toList_append_eq (toList_append_eq (toList_append_eq toList_ofList toList_ofList)
        toList_ofList) toList_ofList) (by decide +kernel)

theorem resolve_command (q : QueryId) : Tables.resolve Tables.schema q.command = some q.table := by
  rw [Tables.schema_eq]
  cases q <;> decide

/-- **What SQLite makes of a text.** -/
theorem run_text (q : QueryId) (value : ℕ → SqlValue) (tables : Tables) :
    traceSqlite.run q.text value tables =
      Tables.run q.table (fun name => value (q.parameters.idxOf name + 1)) tables q.command := by
  simp only [traceSqlite, q.read_text.1, q.read_text.2, resolve_command, Option.bind_eq_bind,
    Option.bind_some]

theorem prepares_text (q : QueryId) (tables : Tables) :
    traceSqlite.prepares q.text tables = true := by
  simp only [traceSqlite, q.read_text.1, Option.bind_some, resolve_command, Option.isSome_some]

end QueryId

/-! ### The functions -/

/-- The lambda of `register_queries`, with `all_ok` as it is so far. -/
def registerOne (sql : Sqlite Tables) (r : Bool × PersistentStorage Tables) (q : QueryId) :
    Option (Bool × PersistentStorage Tables) := do
  let (ok, c) ← r.2.registerQuery sql q.id q.text
  return (r.1 && ok, c)

/-- `register_queries`; it goes on after a failure. -/
def registerQueries (sql : Sqlite Tables) (c : PersistentStorage Tables) :
    Option (Bool × PersistentStorage Tables) :=
  QueryId.all.foldlM (registerOne sql) (true, c)

namespace Queries

/-- An unsigned 64-bit parameter. -/
def uint64 (name : String) (value : UInt64) : String × DbData := (name, .int (.uint64 value))

variable (sql : Sqlite Tables) (c : PersistentStorage Tables)

/-- A call of `query`, after which its parameters are destroyed. -/
def change (q : QueryId) (params : List (String × DbData)) :
    Option (Bool × PersistentStorage Tables) :=
  (c.query sql q.id params 0).map fun r => (r.1, r.2.destroyed 0)

/-- A call of `query_data` with the loop over its cursor, which is left after `n` rows; then the
cursor is destroyed. -/
def rows (q : QueryId) (params : List (String × DbData)) (n : ℕ) :
    Option (List (List SqlValue) × PersistentStorage Tables) :=
  (c.select sql q.id params 0 n).map fun r => (r.1, r.2.destroyed 0)

def insertAllocEvent (frame addr size typeId callstackId : UInt64) :
    Option (Bool × PersistentStorage Tables) :=
  change sql c .insertAllocEvent
    [uint64 "type_id" typeId, uint64 "address" addr, uint64 "size" size, uint64 "frame" frame,
      uint64 "callstack_id" callstackId]

def insertFreeEvent (frame addr : UInt64) (size : UInt32) :
    Option (Bool × PersistentStorage Tables) :=
  change sql c .insertFreeEvent
    [uint64 "address" addr, uint64 "frame" frame, ("size", .int (.uint32 size))]

def insertType (type : List UInt8) (id : UInt64) : Option (Bool × PersistentStorage Tables) :=
  change sql c .insertType [uint64 "id" id, ("type", .str type)]

def insertCallstack (callstack : List UInt8) (id : UInt64) :
    Option (Bool × PersistentStorage Tables) :=
  change sql c .insertCallstack [uint64 "id" id, ("stack", .str callstack)]

def insertFrameStats (frame allocs frees : UInt64) (size : Int64) :
    Option (Bool × PersistentStorage Tables) :=
  change sql c .insertFrameStats
    [uint64 "frame" frame, uint64 "allocs" allocs, uint64 "frees" frees,
      ("size", .int (.int64 size))]

def selectMinMaxFrame (n : ℕ) : Option (List (List SqlValue) × PersistentStorage Tables) :=
  rows sql c .selectMinMaxFrame [] n

def selectEvents (fromFrame toFrame : UInt64) (n : ℕ) :
    Option (List (List SqlValue) × PersistentStorage Tables) :=
  rows sql c .selectEvents [uint64 "from" fromFrame, uint64 "to" toFrame] n

def selectEventsCount (fromFrame toFrame : UInt64) (n : ℕ) :
    Option (List (List SqlValue) × PersistentStorage Tables) :=
  rows sql c .selectEventsCount [uint64 "from" fromFrame, uint64 "to" toFrame] n

def selectStats (fromFrame toFrame : UInt64) (n : ℕ) :
    Option (List (List SqlValue) × PersistentStorage Tables) :=
  rows sql c .selectStats [uint64 "from" fromFrame, uint64 "to" toFrame] n

def selectTypes (n : ℕ) : Option (List (List SqlValue) × PersistentStorage Tables) :=
  rows sql c .selectTypes [] n

def selectCallstacks (n : ℕ) : Option (List (List SqlValue) × PersistentStorage Tables) :=
  rows sql c .selectCallstacks [] n

def selectLastGoodSize (fromFrame : UInt64) (n : ℕ) :
    Option (List (List SqlValue) × PersistentStorage Tables) :=
  rows sql c .selectLastGoodSize [uint64 "from" fromFrame] n

def selectAllocationTypeAndStack (address : UInt64) (n : ℕ) :
    Option (List (List SqlValue) × PersistentStorage Tables) :=
  rows sql c .selectAllocationTypeAndStack [uint64 "address" address] n

end Queries

/-! ### What the loops read -/

/-- What the body of a loop reads from a row. -/
inductive RowReading
  | text (id : UInt64) (text : List UInt8)
  | boundaries (minFrame maxFrame : UInt64)
  | size (size : UInt64)
  | stats (frame allocs frees : UInt64) (size : Int64)
  | count (count : Int64)
  | alloc (addr size frame typeId callstackId : UInt64)
  | free (addr : UInt64)
  | allocation (typeId stackId : UInt64)
  deriving DecidableEq

namespace Cursor

/-- `load_types_and_callstacks`, for the types or for the callstacks. -/
def readText (columns : List String) (id text : String) (row : List SqlValue) :
    StateM Cursor RowReading := do
  let id ← getUint64 columns row id
  let text ← getString columns row text
  return .text id text

/-- `load_types_and_callstacks` -/
def readBoundaries (row : List SqlValue) : StateM Cursor RowReading := do
  let minFrame ← getUint64 QueryId.selectMinMaxFrame.columns row "min_frame"
  let maxFrame ← getUint64 QueryId.selectMinMaxFrame.columns row "max_frame"
  return .boundaries minFrame maxFrame

/-- `get_stats` -/
def readSize (row : List SqlValue) : StateM Cursor RowReading := do
  let size ← getUint64 QueryId.selectLastGoodSize.columns row "size"
  return .size size

/-- `get_stats` -/
def readStats (row : List SqlValue) : StateM Cursor RowReading := do
  let frame ← getUint64 QueryId.selectStats.columns row "frame"
  let allocs ← getUint64 QueryId.selectStats.columns row "allocs"
  let frees ← getUint64 QueryId.selectStats.columns row "frees"
  let size ← getInt64 QueryId.selectStats.columns row "size"
  return .stats frame allocs frees size

/-- `select_events_count` -/
def readCount (row : List SqlValue) : StateM Cursor RowReading := do
  let count ← getInt64 QueryId.selectEventsCount.columns row "count"
  return .count count

/-- `get_live_objects` -/
def readEvent (row : List SqlValue) : StateM Cursor RowReading := do
  let eventType ← getUint64 QueryId.selectEvents.columns row "event_type_id"
  let addr ← getUint64 QueryId.selectEvents.columns row "address"
  if eventType = 1 then
    let frame ← getUint64 QueryId.selectEvents.columns row "frame"
    let size ← getUint64 QueryId.selectEvents.columns row "size"
    let type ← getUint64 QueryId.selectEvents.columns row "type_id"
    let callstack ← getUint64 QueryId.selectEvents.columns row "callstack_id"
    return .alloc addr size frame type callstack
  else return .free addr

/-- `get_allocation_type_and_stack` -/
def readAllocation (row : List SqlValue) : StateM Cursor RowReading := do
  let typeId ← getUint64 QueryId.selectAllocationTypeAndStack.columns row "type_id"
  let stackId ← getUint64 QueryId.selectAllocationTypeAndStack.columns row "callstack_id"
  return .allocation typeId stackId

end Cursor

namespace RowReading

/-- An event as the replay takes it. -/
def ofEvent (row : EventRow) : RowReading :=
  if getUint64 (some row.eventTypeId) = 1 then
    .alloc (getUint64 (some row.address)) (getUint64 (some row.size))
      (getUint64 (some row.frame)) (getUint64 row.typeId)
      (getUint64 row.callstackId)
  else .free (getUint64 (some row.address))

def ofStats (e : StatsEntry) : RowReading :=
  .stats (getUint64 (some e.1)) (getUint64 (some e.2.allocs))
    (getUint64 (some e.2.frees)) e.2.size

def ofText (row : Sigma fun _ : Int64 => List UInt8) : RowReading :=
  .text (getUint64 (some row.1)) (getString row.2)

end RowReading

/-! ### Calls -/

namespace Queries

/-- Calls of the client; a loop is left after `n` rows. -/
inductive Call
  | insertType (type : List UInt8) (id : UInt64)
  | insertCallstack (callstack : List UInt8) (id : UInt64)
  | insertAllocEvent (frame addr size typeId callstackId : UInt64)
  | insertFreeEvent (frame addr : UInt64) (size : UInt32)
  | insertFrameStats (frame allocs frees : UInt64) (size : Int64)
  | beginTransaction
  | commit
  | selectTypes (n : ℕ)
  | selectCallstacks (n : ℕ)
  | selectMinMaxFrame
  | selectLastGoodSize (fromFrame : UInt64)
  | selectStats (fromFrame toFrame : UInt64) (n : ℕ)
  | selectEventsCount (fromFrame toFrame : UInt64)
  | selectEvents (fromFrame toFrame : UInt64) (n : ℕ)
  | selectAllocationTypeAndStack (address : UInt64)

/-- The client does not look at the result of an insertion. -/
def silent (r : Option (Bool × PersistentStorage Tables)) :
    Option (List RowReading × PersistentStorage Tables) :=
  r.map fun r => ([], r.2)

/-- A loop over a cursor. -/
def loop (read : List SqlValue → StateM Cursor RowReading)
    (r : Option (List (List SqlValue) × PersistentStorage Tables)) :
    Option (List RowReading × PersistentStorage Tables) :=
  r.map fun r => (Cursor.readAll read {} r.1, r.2)

end Queries

open Queries (silent loop)

/-- A call, by means of the statements. -/
def PersistentStorage.call (sql : Sqlite Tables) (c : PersistentStorage Tables) :
    Queries.Call → Option (List RowReading × PersistentStorage Tables)
  | .insertType type id => silent (Queries.insertType sql c type id)
  | .insertCallstack callstack id => silent (Queries.insertCallstack sql c callstack id)
  | .insertAllocEvent frame addr size typeId callstackId =>
    silent (Queries.insertAllocEvent sql c frame addr size typeId callstackId)
  | .insertFreeEvent frame addr size => silent (Queries.insertFreeEvent sql c frame addr size)
  | .insertFrameStats frame allocs frees size =>
    silent (Queries.insertFrameStats sql c frame allocs frees size)
  | .beginTransaction => some ([], c.beginTransaction)
  | .commit => some ([], c.commit)
  | .selectTypes n =>
    loop (Cursor.readText QueryId.selectTypes.columns "type_id" "name")
      (Queries.selectTypes sql c n)
  | .selectCallstacks n =>
    loop (Cursor.readText QueryId.selectCallstacks.columns "callstack_id" "callstack")
      (Queries.selectCallstacks sql c n)
  | .selectMinMaxFrame => loop Cursor.readBoundaries (Queries.selectMinMaxFrame sql c 1)
  | .selectLastGoodSize fromFrame =>
    loop Cursor.readSize (Queries.selectLastGoodSize sql c fromFrame 1)
  | .selectStats fromFrame toFrame n =>
    loop Cursor.readStats (Queries.selectStats sql c fromFrame toFrame n)
  | .selectEventsCount fromFrame toFrame =>
    loop Cursor.readCount (Queries.selectEventsCount sql c fromFrame toFrame 1)
  | .selectEvents fromFrame toFrame n =>
    loop Cursor.readEvent (Queries.selectEvents sql c fromFrame toFrame n)
  | .selectAllocationTypeAndStack address =>
    loop Cursor.readAllocation (Queries.selectAllocationTypeAndStack sql c address 1)

/-- The rows of a table in the order of their keys. -/
def byKey {υ : Type} (table : Dict Int64 υ) : List (Sigma fun _ : Int64 => υ) :=
  table.entries.insertionSort fun x y => x.1 ≤ y.1

/-- A call, by means of the functions on databases. -/
def Storage.call (st : Storage) : Queries.Call → List RowReading × Storage
  | .insertType type id => ([], st.query (Database.insertType type id))
  | .insertCallstack callstack id => ([], st.query (Database.insertCallstack callstack id))
  | .insertAllocEvent frame addr size typeId callstackId =>
    ([], st.query (Database.insertAllocEvent frame addr size typeId callstackId))
  | .insertFreeEvent frame addr size => ([], st.query (Database.insertFreeEvent frame addr size))
  | .insertFrameStats frame allocs frees size =>
    ([], st.query (Database.insertFrameStats frame allocs frees size))
  | .beginTransaction => ([], st.beginTransaction)
  | .commit => ([], st.commit)
  | .selectTypes n => (((byKey st.db.objectTypes).take n).map .ofText, st)
  | .selectCallstacks n => (((byKey st.db.callstacks).take n).map .ofText, st)
  | .selectMinMaxFrame =>
    ([.boundaries (getUint64 st.db.selectMinMaxFrame.1) (getUint64 st.db.selectMinMaxFrame.2)], st)
  | .selectLastGoodSize fromFrame =>
    ((st.db.selectLastGoodSize fromFrame).toList.map fun size => .size (getUint64 (some size)), st)
  | .selectStats fromFrame toFrame n =>
    (((st.db.selectStats fromFrame toFrame).take n).map .ofStats, st)
  | .selectEventsCount fromFrame toFrame =>
    ([.count (Int64.ofNat (st.db.selectEventsCount fromFrame toFrame))], st)
  | .selectEvents fromFrame toFrame n =>
    (((st.db.selectEvents fromFrame toFrame).take n).map .ofEvent, st)
  | .selectAllocationTypeAndStack address =>
    ((st.db.selectAllocationTypeAndStack address).toList.map fun row =>
      .allocation (getUint64 row.typeId) (getUint64 row.callstackId), st)

end Owlcat
