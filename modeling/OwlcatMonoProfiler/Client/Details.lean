import OwlcatMonoProfiler.Client.Database
import OwlcatMonoProfiler.Network.Protocol

/-!
# The client

`mono_profiler_client::details` of `mono_profiler_client.cpp`, with the parts of `network.cpp` it
reads from.  Member functions keep their names; members lose the `m_` prefix.

* `Interner`: a pair of maps between texts and ids with its id counter, once for the object types
  and once for the callstacks;
* `Recorder`: the members about events, the database and the maps, with `saveFrameEvents` and
  `trySaveEvents`;
* `Details`: all members of the class;
* `processMessage`, `poll`: one iteration of the loop of `process_messages`;
* `start`, `stop`, `joinThread`, `closeDb`, `openData`, `saveDb`: the life of a session.
-/

namespace Owlcat

open Protocol

inductive EventType
  | alloc
  | free
  deriving DecidableEq

/-- `profiler_event` -/
structure ProfilerEvent where
  type : EventType
  frame : UInt64
  addr : UInt64
  size : UInt32
  objType : List UInt8
  callstack : List UInt8
  deriving DecidableEq

/-- Maps between ids and texts, and the next id to give out. -/
structure Interner where
  toId : Dict (List UInt8) UInt64 := ∅
  toText : Dict UInt64 (List UInt8) := ∅
  nextId : UInt64 := 0

namespace Interner

/-- `insert` into both maps, which keeps an entry that is there. -/
def insert (i : Interner) (text : List UInt8) (id : UInt64) : Interner :=
  { i with toId := i.toId.emplace text id, toText := i.toText.emplace id text }

/-- Give the next id to a text. -/
def create (i : Interner) (text : List UInt8) : Interner :=
  { i.insert text i.nextId with nextId := i.nextId + 1 }

end Interner

/-- The members of `details` that have to do with events and the database. -/
structure Recorder where
  db : Option Storage := none
  frameEvents : List ProfilerEvent := []
  prevFrame : UInt64 := 0xFFFFFFFFFFFFFFFF
  frameAllocs : UInt64 := 0
  frameFrees : UInt64 := 0
  sizeRunningTotal : Int64 := 0
  hasMinFrame : Bool := false
  minFrame : UInt64 := 0
  maxFrame : UInt64 := 0
  types : Interner := {}
  callstacks : Interner := {}

namespace Recorder

/-- The value of `m_prev_frame` before the first frame. -/
def noFrame : UInt64 := 0xFFFFFFFFFFFFFFFF

/-! ### Saving events -/

/-- Run a statement on the database, when it is open. -/
def query (d : Recorder) (statement : Database → Option Database) : Recorder :=
  { d with db := d.db.map (·.query statement) }

/-- Inserts a new type ID into the database, or returns the one that is in memory. -/
def getOrCreateTypeId (d : Recorder) (type : List UInt8) : UInt64 × Recorder :=
  match d.types.toId.lookup type with
  | some id => (id, d)
  | none =>
    (d.types.nextId, { d with types := d.types.create type }.query
      (Database.insertType type d.types.nextId))

/-- Inserts a new callstack ID into the database, or returns the one that is in memory. -/
def getOrCreateCallstackId (d : Recorder) (callstack : List UInt8) : UInt64 × Recorder :=
  match d.callstacks.toId.lookup callstack with
  | some id => (id, d)
  | none =>
    (d.callstacks.nextId, { d with callstacks := d.callstacks.create callstack }.query
      (Database.insertCallstack callstack d.callstacks.nextId))

/-- The body of the loop of `save_frame_events`. -/
def saveEvent (d : Recorder) (e : ProfilerEvent) : Recorder :=
  match e.type with
  | .alloc =>
    let (typeId, d) := d.getOrCreateTypeId e.objType
    let (callstackId, d) := d.getOrCreateCallstackId e.callstack
    d.query (Database.insertAllocEvent e.frame e.addr e.size.toUInt64 typeId callstackId)
  | .free => d.query (Database.insertFreeEvent e.frame e.addr e.size)

def beginTransaction (d : Recorder) : Recorder :=
  { d with db := d.db.map Storage.beginTransaction }

def commit (d : Recorder) : Recorder := { d with db := d.db.map Storage.commit }

def saveFrameStats (d : Recorder) : Recorder :=
  d.query (Database.insertFrameStats d.prevFrame d.frameAllocs d.frameFrees d.sizeRunningTotal)

def clearFrameEvents (d : Recorder) : Recorder := { d with frameEvents := [] }

/-- Saves events from the current frame into the database, in one transaction. -/
def saveFrameEvents (d : Recorder) : Recorder :=
  if d.prevFrame = noFrame then d
  else (d.frameEvents.foldl saveEvent d.beginTransaction).saveFrameStats.commit.clearFrameEvents

/-- Minimum and maximum known frame. -/
def updateFrameBounds (d : Recorder) (frame : UInt64) : Recorder :=
  { d with
    minFrame := if d.hasMinFrame then d.minFrame else frame
    hasMinFrame := true
    maxFrame := if frame > d.maxFrame then frame else d.maxFrame }

def startFrame (d : Recorder) (frame : UInt64) : Recorder :=
  { d with prevFrame := frame, frameAllocs := 0, frameFrees := 0 }

/-- Saves the events of the current frame when an event of another frame comes. -/
def trySaveEvents (d : Recorder) (frame : UInt64) : Recorder :=
  if frame ≠ d.prevFrame then ((d.updateFrameBounds frame).saveFrameEvents).startFrame frame else d

/-- Put an event into the buffer and count it. -/
def pushEvent (d : Recorder) (e : ProfilerEvent) : Recorder :=
  match e.type with
  | .alloc =>
    { d with
      frameEvents := d.frameEvents ++ [e]
      frameAllocs := d.frameAllocs + 1
      sizeRunningTotal := d.sizeRunningTotal + e.size.toUInt64.toInt64 }
  | .free =>
    { d with
      frameEvents := d.frameEvents ++ [e]
      frameFrees := d.frameFrees + 1
      sizeRunningTotal := d.sizeRunningTotal - e.size.toUInt64.toInt64 }

/-- What `process_messages` does with a received event. -/
def addEvent (d : Recorder) (e : ProfilerEvent) : Recorder := (d.trySaveEvents e.frame).pushEvent e

/-- Avoid storing too many events in the buffer. -/
def flush (d : Recorder) : Recorder :=
  if d.frameEvents.length > 10000 then d.saveFrameEvents else d

/-- Submit the last events before quitting. -/
def submitLastEvents (d : Recorder) : Recorder :=
  match d.frameEvents with
  | [] => d
  | e :: _ => d.trySaveEvents e.frame

/-! ### Texts -/

/-- Fill a pair of maps from the rows of a table. -/
def loadTexts (i : Interner) (table : Dict Int64 (List UInt8)) : Interner :=
  table.entries.foldl (fun i row => i.insert (getString row.2) (getUint64 (some row.1))) i

/-- Loads object types and callstacks from the opened database into memory. -/
def loadTypesAndCallstacks (d : Recorder) (db : Database) : Recorder :=
  { d with
    types := loadTexts d.types db.objectTypes
    callstacks := loadTexts d.callstacks db.callstacks
    minFrame := getUint64 db.selectMinMaxFrame.1
    maxFrame := getUint64 db.selectMinMaxFrame.2 }

def getTypeName (d : Recorder) (typeId : UInt64) : List UInt8 :=
  untilNul ((d.types.toText.lookup typeId).getD [])

def getCallstack (d : Recorder) (callstackId : UInt64) : List UInt8 :=
  untilNul ((d.callstacks.toText.lookup callstackId).getD [])

def getTypesCount (d : Recorder) : ℕ := d.types.toText.keys.length

def getCallstacksCount (d : Recorder) : ℕ := d.callstacks.toText.keys.length

end Recorder

/-! ### Messages -/

/-- Before the thread is started, while it runs, and before it is joined. -/
inductive ThreadState
  | none
  | running
  | returned
  deriving DecidableEq

namespace Command

def requestId : Command → UInt64
  | .references requestId _ => requestId
  | .pause requestId => requestId
  | .resume requestId => requestId

/-- The type of the message of a command. -/
def type : Command → UInt8
  | .references .. => cmdReferences
  | .pause .. => cmdPause
  | .resume .. => cmdResume

end Command

/-- The members of `details`.  The first four belong to `m_network`: the messages that were read
from the socket, whether the socket is open, the stop flag of the network thread, and the messages
that were written.  `callbacks` lists the calls of the callbacks of `commands`, `assertFailed` says
that the assertion of `get_command` did not hold; what happens after that is not defined. -/
structure Details extends Recorder where
  readBuffer : List Packet := []
  socketOpen : Bool := false
  networkStop : Bool := false
  written : List Packet := []
  nextRequestId : UInt64 := 0
  commands : List Command := []
  callbacks : List (Command × Received) := []
  assertFailed : Bool := false
  stop : Bool := false
  thread : ThreadState := .none

namespace Details

/-- What `process_messages` does with a received event. -/
def addEvent (d : Details) (e : ProfilerEvent) : Details :=
  { d with toRecorder := d.toRecorder.addEvent e }

/-- Avoid storing too many events in the buffer. -/
def flush (d : Details) : Details := { d with toRecorder := d.toRecorder.flush }

/-- The first command with an id, which is taken out of the list. -/
def getCommand (d : Details) (requestId : UInt64) (type : UInt8) : Option (Command × Details) :=
  (d.commands.find? fun cmd => cmd.requestId = requestId).map fun cmd =>
    (cmd, { d with
      commands := d.commands.eraseP fun cmd => cmd.requestId = requestId
      assertFailed := d.assertFailed || cmd.type != type })

def addCommand (d : Details) (cmd : Command) : Details :=
  { d with
    nextRequestId := d.nextRequestId + 1
    commands := d.commands ++ [cmd]
    written := if d.socketOpen then d.written ++ [cmd.packet] else d.written }

def findObjectsReferences (d : Details) (addresses : List UInt64) : Details :=
  d.addCommand (.references d.nextRequestId addresses)

def pauseApp (d : Details) : Details := d.addCommand (.pause d.nextRequestId)

def resumeApp (d : Details) : Details := d.addCommand (.resume d.nextRequestId)

def callback (d : Details) (cmd : Command) (answer : Received) : Details :=
  { d with callbacks := d.callbacks ++ [(cmd, answer)] }

/-- The branches of `SRV_PAUSE` and `SRV_RESUME`. -/
def processStatus (u : Uninit) (d : Details) (reader : MemoryReader) (type : UInt8)
    (received : UInt64 → Bool → Received) : Details :=
  let requestId := reader.readUint64 u.uint64
  if !requestId.ok then d
  else match d.getCommand requestId.value type with
    | none => d
    | some (cmd, d) =>
      let error := requestId.reader.readUint8 u.uint8
      if !error.ok then d
      else (d.callback cmd (received requestId.value (error.value == 0))).flush

/-- The branch of `SRV_REFERENCES`. -/
def processReferences (u : Uninit) (d : Details) (reader : MemoryReader) : Details :=
  let requestId := reader.readUint64 u.uint64
  if !requestId.ok then d
  else match d.getCommand requestId.value cmdReferences with
    | none => d
    | some (cmd, d) =>
      let count := requestId.reader.readVarint u.uint64
      if !count.ok then d
      else
        let objects := readObjects u count.value.toNat count.reader
        (d.callback cmd (.references requestId.value objects.value)).flush

/-- The loop of `process_messages`, for a message, when it comes to its end: reads do not throw, and
the `__debugbreak` of the `WIN32` build is not reached.  Where the source says `continue`, the size
of the buffer is not looked at. -/
def processMessage (u : Uninit) (d : Details) (msg : Packet) : Details :=
  let reader : MemoryReader := { storage := msg.data }
  if msg.type = srvAlloc then
    let fields := readAlloc u reader
    if fields.ok then
      (d.addEvent ⟨.alloc, fields.value.frame, fields.value.addr, fields.value.size,
        fields.value.name, fields.value.callstack⟩).flush
    else d.flush
  else if msg.type = srvFree then
    let reads := readFree u reader
    -- only the first of the three reads decides
    if reads.frame.ok then
      (d.addEvent ⟨.free, reads.frame.value, reads.addr.value, reads.size.value, [], []⟩).flush
    else d.flush
  else if msg.type = srvReferences then d.processReferences u reader
  else if msg.type = srvPause then d.processStatus u reader cmdPause .paused
  else if msg.type = srvResume then d.processStatus u reader cmdResume .resumed
  else d.flush

/-- One iteration of the loop of `process_messages`, or what follows it. -/
def poll (u : Uninit) (d : Details) : Details :=
  match d.readBuffer with
  | msg :: msgs => { d with readBuffer := msgs }.processMessage u msg
  | [] =>
    if d.stop then { d with toRecorder := d.toRecorder.submitLastEvents, thread := .returned }
    else d

/-! ### Sessions and traces -/

/-- A message arrives while the network thread runs. -/
def receive (d : Details) (msg : Packet) : Details :=
  if d.socketOpen && !d.networkStop then { d with readBuffer := d.readBuffer ++ [msg] } else d

/-- `start`, when the connection is made and the new database is created. -/
def start (d : Details) (faults : List Fault) : Details :=
  { d with socketOpen := true, db := some { faults := faults }, thread := .running }

/-- `stop`, up to the wait for the thread. -/
def requestStop (d : Details) : Details := { d with stop := true }

/-- The rest of `stop`, once the thread has returned: the network is stopped, too. -/
def joinThread (d : Details) : Details :=
  { d with thread := .none, networkStop := true, socketOpen := false }

def closeDb (d : Details) : Details := { d with db := none }

/-- `open_data`; there is no file to open when `file` is `none`. -/
def openData (d : Details) (file : Option Database) : Bool × Details :=
  if d.thread ≠ .none then (false, d)
  else match file with
    | none => (false, { d with db := none })
    | some db =>
      (true, { d with
        toRecorder := { d.toRecorder with db := some { db := db } }.loadTypesAndCallstacks db })

/-- `save_db`: the database is copied to a file, which is opened. -/
def saveDb (d : Details) : Bool × Details :=
  match d.db with
  | none => (false, d)
  | some st => d.openData (some st.db)

end Details

end Owlcat
