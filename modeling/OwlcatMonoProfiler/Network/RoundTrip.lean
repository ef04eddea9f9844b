import OwlcatMonoProfiler.Network.Protocol

/-!
# Every message comes back

The writing side and the reading side of each message fit together: the receiver's reads all
succeed, return the fields that were written and stop at the end of the payload.

* `readParents_spec`, `readObjects_spec`, `readAddresses_spec`: the loops, by induction on the list
  that was written;
* `readReport_reportPacket`, `readCommand_packet`: the messages of the server and of the client;
* `readByPeer_eq`: all of them.
-/

namespace Owlcat

open MemoryReader

/-- The bytes `report_references` writes for one object. -/
def referencesBytes (refs : ObjectReferences) : List UInt8 :=
  varintBytes refs.addr ++ (stringBytes refs.type ++
    (varintBytes (UInt64.ofNat refs.parents.length) ++ refs.parents.flatMap varintBytes))

/-- What is received for a reported object. -/
def ObjectReferences.received (refs : ObjectReferences) : ReceivedReferences :=
  ⟨refs.addr, refs.type.bytes, refs.parents⟩

/-- What is received for a report. -/
def Report.received : Report → Received
  | .alloc frame addr size fullName callstack =>
    .alloc ⟨frame, addr, size, fullName.bytes, callstack.bytes⟩
  | .free frame addr size => .free frame addr size
  | .references requestId objects => .references requestId (objects.map (·.received))
  | .paused requestId ok => .paused requestId ok
  | .resumed requestId ok => .resumed requestId ok

/-! ### The bytes of a list -/

theorem storage_foldl {α : Type} {f : MemoryWriter → α → MemoryWriter} {g : α → List UInt8}
    (h : ∀ w a, (f w a).storage = w.storage ++ g a) (l : List α) (w : MemoryWriter) :
    (l.foldl f w).storage = w.storage ++ l.flatMap g := by
  induction l generalizing w with
  | nil => simp
  | cons a l ih => rw [List.foldl_cons, ih, h, List.flatMap_cons, List.append_assoc]

theorem storage_writeReferences (w : MemoryWriter) (refs : ObjectReferences) :
    (writeReferences w refs).storage = w.storage ++ referencesBytes refs := by
  rw [writeReferences, storage_foldl MemoryWriter.storage_writeVarint]
  simp [referencesBytes]

theorem varintBytes_ne_nil (v : UInt64) : varintBytes v ≠ [] := by
  unfold varintBytes MemoryWriter.writeVarint
  split_ifs <;> simp [MemoryWriter.writeUint16, LittleEndian.toBytes]

/-- A list whose elements take up space is no longer than its bytes. -/
theorem length_le_flatMap {α : Type} {g : α → List UInt8} (h : ∀ a, g a ≠ []) (l : List α) :
    l.length ≤ (l.flatMap g).length := by
  induction l with
  | nil => simp
  | cons a l ih =>
    have := List.length_pos_iff.2 (h a)
    rw [List.flatMap_cons, List.length_append, List.length_cons]
    omega

/-- So its length survives the conversion to an integer of the message. -/
theorem toNat_length {α : Type} {g : α → List UInt8} (h : ∀ a, g a ≠ []) {l : List α}
    {rest : List UInt8} {r : MemoryReader} (hr : r.Before (l.flatMap g ++ rest)) :
    (UInt64.ofNat l.length).toNat = l.length := by
  have hle := length_le_flatMap h l
  have hlt := hr.length_lt
  rw [List.length_append] at hlt
  exact UInt64.toNat_ofNat_of_lt' (show l.length < 2 ^ 64 by omega)

/-! ### The loops -/

theorem readParents_spec (u : Uninit) {l : List UInt64} {rest : List UInt8} {r : MemoryReader}
    (h : r.Before (l.flatMap varintBytes ++ rest)) :
    ∃ r', readParents u l.length r = ⟨true, l, r'⟩ ∧ r'.storage = r.storage ∧ r'.Before rest := by
  induction l generalizing r with
  | nil => exact ⟨r, rfl, rfl, h⟩
  | cons a l ih =>
    rw [List.flatMap_cons, List.append_assoc] at h
    obtain ⟨r₁, h1, h2, h3⟩ := readVarint_spec h u.uint64
    obtain ⟨r₂, h4, h5, h6⟩ := ih h3
    exact ⟨r₂, by simp [readParents, h1, h4], h5.trans h2, h6⟩

theorem readAddresses_spec (u : Uninit) {l : List UInt64} {rest : List UInt8} {r : MemoryReader}
    (h : r.Before (l.flatMap (fun a => LittleEndian.toBytes 8 a.toNat) ++ rest)) :
    ∃ r', readAddresses u l.length r = ⟨true, l, r'⟩ ∧ r'.storage = r.storage ∧ r'.Before rest := by
  induction l generalizing r with
  | nil => exact ⟨r, rfl, rfl, h⟩
  | cons a l ih =>
    rw [List.flatMap_cons, List.append_assoc] at h
    obtain ⟨r₁, h1, h2, h3⟩ := readUint64_spec h u.uint64
    obtain ⟨r₂, h4, h5, h6⟩ := ih h3
    exact ⟨r₂, by simp [readAddresses, h1, h4], h5.trans h2, h6⟩

theorem readObjects_spec (u : Uninit) {l : List ObjectReferences} {rest : List UInt8}
    {r : MemoryReader} (h : r.Before (l.flatMap referencesBytes ++ rest)) :
    ∃ r', readObjects u l.length r = ⟨true, l.map (·.received), r'⟩ ∧ r'.storage = r.storage ∧
      r'.Before rest := by
  induction l generalizing r with
  | nil => exact ⟨r, rfl, rfl, h⟩
  | cons refs l ih =>
    rw [List.flatMap_cons, referencesBytes] at h
    simp only [List.append_assoc] at h
    obtain ⟨r₁, h1, e1, b1⟩ := readVarint_spec h u.uint64
    obtain ⟨r₂, h2, e2, b2⟩ := readString_spec b1
    obtain ⟨r₃, h3, e3, b3⟩ := readVarint_spec b2 u.uint64
    obtain ⟨r₄, h4, e4, b4⟩ := readParents_spec u b3
    obtain ⟨r₅, h5, e5, b5⟩ := ih b4
    have hlen := toNat_length varintBytes_ne_nil b3
    refine ⟨r₅, ?_, by rw [e5, e4, e3, e2, e1], b5⟩
    simp only [List.length_cons, readObjects, h1, h2, h3, hlen, h4, h5, Bool.and_self,
      List.map_cons]
    rfl

/-! ### The messages -/

theorem readAlloc_spec (u : Uninit) {frame addr : UInt64} {size : UInt32} {name callstack : CString}
    {rest : List UInt8} {r : MemoryReader}
    (h : r.Before (LittleEndian.toBytes 8 frame.toNat ++ (LittleEndian.toBytes 8 addr.toNat ++
      (LittleEndian.toBytes 4 size.toNat ++
        (stringBytes name ++ (stringBytes callstack ++ rest)))))) :
    ∃ r', readAlloc u r = ⟨true, ⟨frame, addr, size, name.bytes, callstack.bytes⟩, r'⟩ ∧
      r'.storage = r.storage ∧ r'.Before rest := by
  obtain ⟨r₁, h1, e1, b1⟩ := readUint64_spec h u.uint64
  obtain ⟨r₂, h2, e2, b2⟩ := readUint64_spec b1 u.uint64
  obtain ⟨r₃, h3, e3, b3⟩ := readUint32_spec b2 u.uint32
  obtain ⟨r₄, h4, e4, b4⟩ := readString_spec b3
  obtain ⟨r₅, h5, e5, b5⟩ := readString_spec b4
  exact ⟨r₅, by simp [readAlloc, ReadResult.andThen, h1, h2, h3, h4, h5],
    by rw [e5, e4, e3, e2, e1], b5⟩

theorem readFree_spec (u : Uninit) {frame addr : UInt64} {size : UInt32} {rest : List UInt8}
    {r : MemoryReader}
    (h : r.Before (LittleEndian.toBytes 8 frame.toNat ++ (LittleEndian.toBytes 8 addr.toNat ++
      (LittleEndian.toBytes 4 size.toNat ++ rest)))) :
    ∃ r₁ r₂ r₃, readFree u r = ⟨⟨true, frame, r₁⟩, ⟨true, addr, r₂⟩, ⟨true, size, r₃⟩⟩ ∧
      r₃.storage = r.storage ∧ r₃.Before rest := by
  obtain ⟨r₁, h1, e1, b1⟩ := readUint64_spec h u.uint64
  obtain ⟨r₂, h2, e2, b2⟩ := readUint64_spec b1 u.uint64
  obtain ⟨r₃, h3, e3, b3⟩ := readUint32_spec b2 u.uint32
  exact ⟨r₁, r₂, r₃, by simp [readFree, h1, h2, h3], by rw [e3, e2, e1], b3⟩

theorem readError_spec (u : Uninit) {requestId : UInt64} {ok : Bool} {r : MemoryReader}
    (h : r.Before (LittleEndian.toBytes 8 requestId.toNat ++
      LittleEndian.toBytes 1 (if ok then 0 else 1 : UInt8).toNat)) :
    ∃ r₁ r₂ error, r.readUint64 u.uint64 = ⟨true, requestId, r₁⟩ ∧
      r₁.readUint8 u.uint8 = ⟨true, error, r₂⟩ ∧ (error == 0) = ok ∧ r₂.storage = r.storage ∧
      r₂.Before [] := by
  rw [← List.append_nil (LittleEndian.toBytes 1 _)] at h
  obtain ⟨r₁, h1, e1, b1⟩ := readUint64_spec h u.uint64
  obtain ⟨r₂, h2, e2, b2⟩ := readUint8_spec b1 u.uint8
  exact ⟨r₁, r₂, _, h1, h2, by cases ok <;> rfl, e2.trans e1, b2⟩

/-- **The client reads what the server reports.** -/
theorem readReport_reportPacket (u : Uninit) (report : Report)
    (hlen : (reportPacket report).data.length < 2 ^ 64) :
    ∃ r, readReport u (reportPacket report) = some ⟨true, report.received, r⟩ ∧
      r.storage = (reportPacket report).data ∧ r.Before [] := by
  have hstart := before_start hlen
  cases report with
  | alloc frame addr size fullName callstack =>
    simp only [reportPacket, MemoryWriter.storage_writeString, MemoryWriter.storage_writeUint32,
      MemoryWriter.storage_writeUint64, List.nil_append, List.append_assoc] at hstart ⊢
    rw [← List.append_nil (stringBytes callstack)] at hstart
    obtain ⟨r', h1, e1, b1⟩ := readAlloc_spec u hstart
    rw [List.append_nil] at h1 e1
    exact ⟨r', by simp [readReport, h1, Report.received], e1, b1⟩
  | free frame addr size =>
    simp only [reportPacket, MemoryWriter.storage_writeUint32, MemoryWriter.storage_writeUint64,
      List.nil_append, List.append_assoc] at hstart ⊢
    rw [← List.append_nil (LittleEndian.toBytes 4 size.toNat)] at hstart
    obtain ⟨r₁, r₂, r₃, h1, e1, b1⟩ := readFree_spec u hstart
    rw [List.append_nil] at h1 e1
    refine ⟨r₃, ?_, e1, b1⟩
    simp [readReport, h1, Report.received, Protocol.srvFree, Protocol.srvAlloc]
  | references requestId objects =>
    simp only [reportPacket, storage_foldl storage_writeReferences,
      MemoryWriter.storage_writeVarint, MemoryWriter.storage_writeUint64, List.nil_append,
      List.append_assoc] at hstart ⊢
    obtain ⟨r₁, h1, e1, b1⟩ := readUint64_spec hstart u.uint64
    obtain ⟨r₂, h2, e2, b2⟩ := readVarint_spec b1 u.uint64
    rw [← List.append_nil (objects.flatMap _)] at b2
    obtain ⟨r₃, h3, e3, b3⟩ := readObjects_spec u b2
    have hcount := toNat_length (by simp [referencesBytes, varintBytes_ne_nil]) b2
    refine ⟨r₃, ?_, by rw [e3, e2, e1], b3⟩
    simp [readReport, ReadResult.andThen, h1, h2, hcount, h3, Report.received,
      Protocol.srvReferences, Protocol.srvFree, Protocol.srvAlloc]
  | paused requestId ok =>
    simp only [reportPacket, MemoryWriter.storage_writeUint8, MemoryWriter.storage_writeUint64,
      List.nil_append] at hstart ⊢
    obtain ⟨r₁, r₂, error, h1, h2, h3, e2, b2⟩ := readError_spec u hstart
    refine ⟨r₂, ?_, e2, b2⟩
    simp [readReport, ReadResult.andThen, h1, h2, h3, Report.received, Protocol.srvPause,
      Protocol.srvReferences, Protocol.srvFree, Protocol.srvAlloc]
  | resumed requestId ok =>
    simp only [reportPacket, MemoryWriter.storage_writeUint8, MemoryWriter.storage_writeUint64,
      List.nil_append] at hstart ⊢
    obtain ⟨r₁, r₂, error, h1, h2, h3, e2, b2⟩ := readError_spec u hstart
    refine ⟨r₂, ?_, e2, b2⟩
    simp [readReport, ReadResult.andThen, h1, h2, h3, Report.received, Protocol.srvResume,
      Protocol.srvPause, Protocol.srvReferences, Protocol.srvFree, Protocol.srvAlloc]

/-- **The server reads what the client requests.** -/
theorem readCommand_packet (u : Uninit) (command : Command)
    (hlen : command.packet.data.length < 2 ^ 64) :
    ∃ r, readCommand u command.packet = some ⟨true, command, r⟩ ∧
      r.storage = command.packet.data ∧ r.Before [] := by
  have hstart := before_start hlen
  cases command with
  | references requestId addresses =>
    simp only [Command.packet, storage_foldl MemoryWriter.storage_writeUint64,
      MemoryWriter.storage_writeUint64, List.nil_append, List.append_assoc] at hstart ⊢
    obtain ⟨r₁, h1, e1, b1⟩ := readUint64_spec hstart u.uint64
    obtain ⟨r₂, h2, e2, b2⟩ := readUint64_spec b1 u.uint64
    rw [← List.append_nil (addresses.flatMap _)] at b2
    obtain ⟨r₃, h3, e3, b3⟩ := readAddresses_spec u b2
    have hcount := toNat_length (by simp [LittleEndian.toBytes]) b2
    refine ⟨r₃, ?_, by rw [e3, e2, e1], b3⟩
    simp only [readCommand, h1, h2, if_true]
    simp only [hcount, h3, Bool.and_self]
  | pause requestId =>
    simp only [Command.packet, MemoryWriter.storage_writeUint64, List.nil_append] at hstart ⊢
    rw [← List.append_nil (LittleEndian.toBytes 8 _)] at hstart
    obtain ⟨r₁, h1, e1, b1⟩ := readUint64_spec hstart u.uint64
    rw [List.append_nil] at h1 e1
    exact ⟨r₁, by simp [readCommand, h1, Protocol.cmdPause, Protocol.cmdReferences], e1, b1⟩
  | resume requestId =>
    simp only [Command.packet, MemoryWriter.storage_writeUint64, List.nil_append] at hstart ⊢
    rw [← List.append_nil (LittleEndian.toBytes 8 _)] at hstart
    obtain ⟨r₁, h1, e1, b1⟩ := readUint64_spec hstart u.uint64
    rw [List.append_nil] at h1 e1
    refine ⟨r₁, ?_, e1, b1⟩
    simp [readCommand, h1, Protocol.cmdResume, Protocol.cmdPause, Protocol.cmdReferences]

/-! ### All messages -/

/-- A message of either side. -/
inductive Sent
  | report (report : Report)
  | command (command : Command)

/-- What the other side gets out of it. -/
inductive Decoded
  | report (report : Received)
  | command (command : Command)
  deriving DecidableEq

/-- The bytes on the wire. -/
def Sent.packet : Sent → Packet
  | .report r => reportPacket r
  | .command c => c.packet

/-- The fields that were written. -/
def Sent.fields : Sent → Decoded
  | .report r => .report r.received
  | .command c => .command c

/-- The reads of the other side: the client's for a report, the server's for a command. -/
def Sent.readByPeer (u : Uninit) : Sent → Option (ReadResult Decoded)
  | .report r => (readReport u (reportPacket r)).map fun d => ⟨d.ok, .report d.value, d.reader⟩
  | .command c => (readCommand u c.packet).map fun d => ⟨d.ok, .command d.value, d.reader⟩

/-- **Wire protocol round trip.**  The peer's reads of a message all succeed, return the fields that
were written and end with the payload. -/
theorem readByPeer_eq (u : Uninit) (sent : Sent) (hlen : sent.packet.data.length < 2 ^ 32) :
    ∃ r, sent.readByPeer u = some ⟨true, sent.fields, r⟩ ∧
      r.pos.toNat = sent.packet.data.length := by
  have hlen' : sent.packet.data.length < 2 ^ 64 := by omega
  cases sent with
  | report report =>
    obtain ⟨r, h, hstorage, hr⟩ := readReport_reportPacket u report hlen'
    refine ⟨r, by rw [Sent.readByPeer, h]; rfl, ?_⟩
    rw [hr.pos_eq, hstorage]
    rfl
  | command command =>
    obtain ⟨r, h, hstorage, hr⟩ := readCommand_packet u command hlen'
    refine ⟨r, by rw [Sent.readByPeer, h]; rfl, ?_⟩
    rw [hr.pos_eq, hstorage]
    rfl

/-- An object with parents on both sides of every width of the variable-width integers. -/
theorem readByPeer_eq_widths :
    ∃ r, (Sent.report (.references 7 [⟨0xFFFE, .ofLit "List", [0xFC, 0xFD, 0xFFFF, 0xFFFFFFFE,
        0xFFFFFFFF]⟩])).readByPeer ⟨1, 2, 3⟩ = some ⟨true, .report (.references 7
          [⟨0xFFFE, (CString.ofLit "List").bytes,
            [0xFC, 0xFD, 0xFFFF, 0xFFFFFFFE, 0xFFFFFFFF]⟩]), r⟩ ∧
      r.pos.toNat = 41 :=
  readByPeer_eq ⟨1, 2, 3⟩ (.report (.references 7 [⟨0xFFFE, .ofLit "List", [0xFC, 0xFD, 0xFFFF,
    0xFFFFFFFE, 0xFFFFFFFF]⟩])) (by decide)

end Owlcat
