import OwlcatMonoProfiler.Common.MemoryStream
import OwlcatMonoProfiler.Server.WorkerThread

/-!
# The messages between server and client

The type codes of `network.h`, the functions that write a message and the reads its receiver makes,
as they stand in `mono_profiler_server.cpp` (`network_events_sink`, `process_messages`) and
`mono_profiler_client.cpp` (`find_objects_references`, `pause_app`, `resume_app`,
`process_messages`).

* `Packet`: a message on the wire, its type and its payload;
* `Uninit`: what local variables hold before a read succeeds;
* `reportPacket`, `Command.packet`: the writing side;
* `readAlloc`, `readFree`, …: the reads of the receiving side, one function for each kind of
  message. A `ReadResult` says whether all of its reads succeeded, whatever the receiver makes of
that. -/

namespace Owlcat

/-- A message: `header.type` and `data`. -/
structure Packet where
  type : UInt8
  data : List UInt8
  deriving DecidableEq

/-- The indeterminate values of local variables. -/
structure Uninit where
  uint8 : UInt8
  uint32 : UInt32
  uint64 : UInt64

/-- A request of the client. -/
inductive Command
  | references (requestId : UInt64) (addresses : List UInt64)
  | pause (requestId : UInt64)
  | resume (requestId : UInt64)
  deriving DecidableEq

/-- What the client receives about one object. -/
structure ReceivedReferences where
  address : UInt64
  type : List UInt8
  parents : List UInt64
  deriving DecidableEq

namespace Protocol

def srvAlloc : UInt8 := 1
def srvFree : UInt8 := 2
def srvReferences : UInt8 := 3
def srvPause : UInt8 := 4
def srvResume : UInt8 := 5

def cmdReferences : UInt8 := 1
def cmdPause : UInt8 := 2
def cmdResume : UInt8 := 3

end Protocol

open Protocol

/-! ### Writing -/

/-- `report_references` for one object. -/
def writeReferences (w : MemoryWriter) (refs : ObjectReferences) : MemoryWriter :=
  refs.parents.foldl MemoryWriter.writeVarint
    (((w.writeVarint refs.addr).writeString refs.type).writeVarint
      (UInt64.ofNat refs.parents.length))

/-- What `network_events_sink` sends for a call. -/
def reportPacket : Report → Packet
  | .alloc frame addr size fullName callstack =>
    ⟨srvAlloc, (((((MemoryWriter.mk []).writeUint64 frame).writeUint64 addr).writeUint32
      size).writeString fullName).writeString callstack |>.storage⟩
  | .free frame addr size =>
    ⟨srvFree, (((MemoryWriter.mk []).writeUint64 frame).writeUint64 addr).writeUint32 size
      |>.storage⟩
  | .references requestId references =>
    ⟨srvReferences, (references.foldl writeReferences
      (((MemoryWriter.mk []).writeUint64 requestId).writeVarint
        (UInt64.ofNat references.length))).storage⟩
  | .paused requestId ok =>
    ⟨srvPause, (((MemoryWriter.mk []).writeUint64 requestId).writeUint8
      (if ok then 0 else 1)).storage⟩
  | .resumed requestId ok =>
    ⟨srvResume, (((MemoryWriter.mk []).writeUint64 requestId).writeUint8
      (if ok then 0 else 1)).storage⟩

/-- What the client sends for a request. -/
def Command.packet : Command → Packet
  | .references requestId addresses =>
    ⟨cmdReferences, (addresses.foldl MemoryWriter.writeUint64
      (((MemoryWriter.mk []).writeUint64 requestId).writeUint64
        (UInt64.ofNat addresses.length))).storage⟩
  | .pause requestId => ⟨cmdPause, ((MemoryWriter.mk []).writeUint64 requestId).storage⟩
  | .resume requestId => ⟨cmdResume, ((MemoryWriter.mk []).writeUint64 requestId).storage⟩

/-! ### Reading -/

namespace ReadResult

/-- `a && b`: the second read is not made when the first one fails. -/
def andThen {α β : Type} (a : ReadResult α) (old : β) (b : MemoryReader → ReadResult β) :
    ReadResult β :=
  if a.ok then b a.reader else ⟨false, old, a.reader⟩

end ReadResult

/-- The fields of an `SRV_ALLOC` message. -/
structure AllocFields where
  frame : UInt64
  addr : UInt64
  size : UInt32
  name : List UInt8
  callstack : List UInt8
  deriving DecidableEq

/-- The reads of an `SRV_ALLOC` message; the first one that fails is the last. -/
def readAlloc (u : Uninit) (r : MemoryReader) : ReadResult AllocFields :=
  let frame := r.readUint64 u.uint64
  let addr := frame.andThen u.uint64 (·.readUint64 u.uint64)
  let size := addr.andThen u.uint32 (·.readUint32 u.uint32)
  let name := size.andThen [] (·.readString [])
  let callstack := name.andThen [] (·.readString [])
  ⟨callstack.ok, ⟨frame.value, addr.value, size.value, name.value, callstack.value⟩,
    callstack.reader⟩

/-- The reads of an `SRV_FREE` message; each is made whatever the others return. -/
structure FreeReads where
  frame : ReadResult UInt64
  addr : ReadResult UInt64
  size : ReadResult UInt32

def readFree (u : Uninit) (r : MemoryReader) : FreeReads :=
  let frame := r.readUint64 u.uint64
  let addr := frame.reader.readUint64 u.uint64
  ⟨frame, addr, addr.reader.readUint32 u.uint32⟩

/-- The loop over `n` parents. -/
def readParents (u : Uninit) : ℕ → MemoryReader → ReadResult (List UInt64)
  | 0, r => ⟨true, [], r⟩
  | n + 1, r =>
    let parent := r.readVarint u.uint64
    let rest := readParents u n parent.reader
    ⟨parent.ok && rest.ok, parent.value :: rest.value, rest.reader⟩

/-- The loop over `n` objects. -/
def readObjects (u : Uninit) : ℕ → MemoryReader → ReadResult (List ReceivedReferences)
  | 0, r => ⟨true, [], r⟩
  | n + 1, r =>
    let addr := r.readVarint u.uint64
    let type := addr.reader.readString []
    let count := type.reader.readVarint u.uint64
    let parents := readParents u count.value.toNat count.reader
    let rest := readObjects u n parents.reader
    ⟨addr.ok && type.ok && count.ok && parents.ok && rest.ok,
      ⟨addr.value, type.value, parents.value⟩ :: rest.value, rest.reader⟩

/-- The loop over `n` addresses of a `CMD_REFERENCES` message. -/
def readAddresses (u : Uninit) : ℕ → MemoryReader → ReadResult (List UInt64)
  | 0, r => ⟨true, [], r⟩
  | n + 1, r =>
    let addr := r.readUint64 u.uint64
    let rest := readAddresses u n addr.reader
    ⟨addr.ok && rest.ok, addr.value :: rest.value, rest.reader⟩

/-- What the client makes of a message of the server. -/
inductive Received
  | alloc (fields : AllocFields)
  | free (frame addr : UInt64) (size : UInt32)
  | references (requestId : UInt64) (objects : List ReceivedReferences)
  | paused (requestId : UInt64) (ok : Bool)
  | resumed (requestId : UInt64) (ok : Bool)
  deriving DecidableEq

/-- The reads of the client's message loop. -/
def readReport (u : Uninit) (msg : Packet) : Option (ReadResult Received) :=
  let reader : MemoryReader := { storage := msg.data }
  if msg.type = srvAlloc then
    let fields := readAlloc u reader
    some ⟨fields.ok, .alloc fields.value, fields.reader⟩
  else if msg.type = srvFree then
    let reads := readFree u reader
    some ⟨reads.frame.ok && reads.addr.ok && reads.size.ok,
      .free reads.frame.value reads.addr.value reads.size.value, reads.size.reader⟩
  else
    let requestId := reader.readUint64 u.uint64
    if msg.type = srvReferences then
      let count := requestId.andThen u.uint64 (·.readVarint u.uint64)
      let objects := count.andThen [] (readObjects u count.value.toNat)
      some ⟨objects.ok, .references requestId.value objects.value, objects.reader⟩
    else if msg.type = srvPause then
      let error := requestId.andThen u.uint8 (·.readUint8 u.uint8)
      some ⟨error.ok, .paused requestId.value (error.value == 0), error.reader⟩
    else if msg.type = srvResume then
      let error := requestId.andThen u.uint8 (·.readUint8 u.uint8)
      some ⟨error.ok, .resumed requestId.value (error.value == 0), error.reader⟩
    else none

/-- The reads of the server's command loop. -/
def readCommand (u : Uninit) (msg : Packet) : Option (ReadResult Command) :=
  let requestId := MemoryReader.readUint64 { storage := msg.data } u.uint64
  if msg.type = cmdReferences then
    let count := requestId.reader.readUint64 u.uint64
    let addresses := readAddresses u count.value.toNat count.reader
    some ⟨requestId.ok && count.ok && addresses.ok, .references requestId.value addresses.value,
      addresses.reader⟩
  else if msg.type = cmdPause then some ⟨requestId.ok, .pause requestId.value, requestId.reader⟩
  else if msg.type = cmdResume then some ⟨requestId.ok, .resume requestId.value, requestId.reader⟩
  else none

end Owlcat
