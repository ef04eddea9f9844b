import Mathlib.Data.List.Sort
import OwlcatMonoProfiler.Library.Dict

/-!
# The trace database

The tables of `db_migrations.cpp`, the queries of `db_queries.cpp` on them, and the connection of
`persistent_storage.cpp` the client sends these queries through.

* `DbValue.bind`: what a bound parameter is stored as, `getInt`, `getInt64`, `getUint`, `getUint64`,
  `getString`: what is read back;
* `Database`: the rows of the four tables.  `ProfilerEvents` is in insertion order, the others have
  an integer primary key;
* `Database → Option Database`: a statement; `none` when a constraint of the tables rejects it;
* `Storage`: an open connection, perhaps inside a transaction, and the `Fault`s its statements meet.
-/

namespace Owlcat

/-! ### Values -/

/-- An integer parameter of a query. -/
inductive DbValue
  | int32 (value : Int32)
  | int64 (value : Int64)
  | uint32 (value : UInt32)
  | uint64 (value : UInt64)

/-- `prepare_statement`: 32-bit integers go through `sqlite3_bind_int`, which takes an `int`, and
64-bit integers through `sqlite3_bind_int64`. -/
def DbValue.bind : DbValue → Int64
  | .int32 value => value.toInt64
  | .int64 value => value
  | .uint32 value => value.toInt32.toInt64
  | .uint64 value => value.toInt64

/-- `cursor::get_int` on an integer column; `none` is NULL. -/
def getInt (column : Option Int64) : Int32 := column.elim 0 Int64.toInt32

def getInt64 (column : Option Int64) : Int64 := column.elim 0 id

def getUint (column : Option Int64) : UInt32 := column.elim 0 fun value => value.toUInt64.toUInt32

def getUint64 (column : Option Int64) : UInt64 := column.elim 0 Int64.toUInt64

/-- The C string that starts with a text. -/
def untilNul (text : List UInt8) : List UInt8 := text.takeWhile (· ≠ 0)

/-- `cursor::get_string`: `populate_columns` builds the string from a pointer to its first byte. -/
def getString (column : List UInt8) : List UInt8 := untilNul column

/-! ### Tables -/

/-- A row of `ProfilerEvents`. -/
structure EventRow where
  eventTypeId : Int64
  typeId : Option Int64
  address : Int64
  size : Int64
  frame : Int64
  callstackId : Option Int64
  deriving DecidableEq

/-- A row of `FrameStats`, less its key. -/
structure StatsRow where
  allocs : Int64
  frees : Int64
  size : Int64
  deriving DecidableEq

/-- The contents of a trace. -/
structure Database where
  profilerEvents : List EventRow := []
  frameStats : Dict Int64 StatsRow := ∅
  objectTypes : Dict Int64 (List UInt8) := ∅
  callstacks : Dict Int64 (List UInt8) := ∅

namespace Database

/-- `INSERT` into a table whose rows have an integer primary key and a unique text. -/
def insertText (table : Dict Int64 (List UInt8)) (id : UInt64) (text : List UInt8) :
    Option (Dict Int64 (List UInt8)) :=
  if (DbValue.uint64 id).bind ∈ table ∨ text ∈ Dict.values table then none
  else some (table.insert (DbValue.uint64 id).bind text)

def insertType (type : List UInt8) (id : UInt64) (db : Database) : Option Database :=
  (insertText db.objectTypes id type).map fun t => { db with objectTypes := t }

def insertCallstack (callstack : List UInt8) (id : UInt64) (db : Database) : Option Database :=
  (insertText db.callstacks id callstack).map fun t => { db with callstacks := t }

def insertAllocEvent (frame addr size typeId callstackId : UInt64) (db : Database) :
    Option Database :=
  some { db with
    profilerEvents := db.profilerEvents ++
      [{ eventTypeId := 1
         typeId := some (DbValue.uint64 typeId).bind
         address := (DbValue.uint64 addr).bind
         size := (DbValue.uint64 size).bind
         frame := (DbValue.uint64 frame).bind
         callstackId := some (DbValue.uint64 callstackId).bind }] }

def insertFreeEvent (frame addr : UInt64) (size : UInt32) (db : Database) : Option Database :=
  some { db with
    profilerEvents := db.profilerEvents ++
      [{ eventTypeId := 2
         typeId := none
         address := (DbValue.uint64 addr).bind
         size := (DbValue.uint32 size).bind
         frame := (DbValue.uint64 frame).bind
         callstackId := none }] }

/-- `INSERT OR REPLACE` -/
def insertFrameStats (frame allocs frees : UInt64) (size : Int64) (db : Database) :
    Option Database :=
  some { db with
    frameStats := db.frameStats.insert (DbValue.uint64 frame).bind
      ⟨(DbValue.uint64 allocs).bind, (DbValue.uint64 frees).bind, (DbValue.int64 size).bind⟩ }

/-- The events of a window, in the order of their frames; SQLite compares signed integers. -/
def selectEvents (fromFrame toFrame : UInt64) (db : Database) : List EventRow :=
  (db.profilerEvents.filter fun row =>
    (DbValue.uint64 fromFrame).bind ≤ row.frame ∧ row.frame ≤ (DbValue.uint64 toFrame).bind)
  |>.insertionSort fun x y => x.frame ≤ y.frame

def selectEventsCount (fromFrame toFrame : UInt64) (db : Database) : ℕ :=
  (db.profilerEvents.filter fun row =>
    (DbValue.uint64 fromFrame).bind ≤ row.frame ∧ row.frame ≤ (DbValue.uint64 toFrame).bind).length

/-- The smallest and the largest frame, NULL for an empty table. -/
def selectMinMaxFrame (db : Database) : Option Int64 × Option Int64 :=
  let frames := db.profilerEvents.map fun row => row.frame
  (frames.min?, frames.max?)

end Database

/-! ### The connection -/

/-- What a statement meets that has nothing to do with it. -/
inductive Fault
  /-- Nothing. -/
  | none
  /-- It fails and has no effect, as when the file is locked. -/
  | fails
  /-- It fails, and SQLite rolls back the whole transaction and closes it: `sqlite3VdbeHalt` does so
  on a full disk, an input or output error or when there is no memory, and for a commit that cannot
  write. -/
  | rollsBack
  deriving DecidableEq

/-- An open `persistent_storage`.  `rollback` is what `ROLLBACK TRANSACTION` restores, when a
transaction is open.  `faults` says what the following statements meet; those after its end meet
nothing. -/
structure Storage where
  db : Database := {}
  rollback : Option Database := none
  faults : List Fault := []

namespace Storage

/-- What is in the file once the connection is closed. -/
def written (st : Storage) : Database := st.rollback.getD st.db

/-- Run one statement, unless it fails for a reason of its own. -/
def attempt (st : Storage) (f : Storage → Storage) : Storage :=
  match st.faults with
  | [] => f st
  | .none :: faults => f { st with faults := faults }
  | .fails :: faults => { st with faults := faults }
  | .rollsBack :: faults => { db := st.written, faults := faults }

/-- `query`; the client ignores its result. -/
def query (st : Storage) (statement : Database → Option Database) : Storage :=
  st.attempt fun st => { st with db := (statement st.db).getD st.db }

/-- The constructor of `transaction`; a transaction cannot start inside another. -/
def beginTransaction (st : Storage) : Storage :=
  st.attempt fun st => { st with rollback := some (st.rollback.getD st.db) }

/-- `transaction::commit`, after which the destructor does nothing. -/
def commit (st : Storage) : Storage := st.attempt fun st => { st with rollback := none }

/-- No statement fails for a reason of its own, and no transaction is open. -/
def Healthy (st : Storage) : Prop := st.faults = [] ∧ st.rollback = none

end Storage

end Owlcat
