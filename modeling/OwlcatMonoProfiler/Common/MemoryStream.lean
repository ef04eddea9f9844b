import Mathlib.Data.List.TakeWhile
import Mathlib.Tactic.IntervalCases
import OwlcatMonoProfiler.Library.LittleEndian

/-!
# `memory_writer` and `memory_reader`

The two helper classes both programs serialize messages with (`common/memory_writer.h`,
`common/memory_reader.h`).  Member functions keep their names; members lose the `m_` prefix.

* A `MemoryWriter` appends to a vector of bytes.
* A `MemoryReader` walks over a vector of bytes.  A position is a `size_t`, here `UInt64`, and the
  bounds checks add to it modulo `2 ^ 64` as the source does.  The output parameters of the source
  become an argument (the earlier contents of the variable) and a result.

`Before r l` says that the bytes `l` are still to be read from `r`; for every write there is a lemma
that the corresponding read returns the value written and leaves the rest (`readUint64_spec`, …).
Multi-byte integers are little-endian: `write` and `read` copy the memory of a little-endian
machine. -/

namespace Owlcat

open LittleEndian

/-- A C string: its bytes up to the terminating NUL. -/
structure CString where
  bytes : List UInt8
  noNul : 0 ∉ bytes
  deriving DecidableEq

namespace CString

/-- The C string a literal of the source stands for. -/
def ofLit (s : String) : CString :=
  ⟨(s.toList.map fun c => UInt8.ofNat c.toNat).takeWhile (· ≠ 0), fun h => by
    simpa using List.mem_takeWhile_imp h⟩

/-- The empty string. -/
def empty : CString := ⟨[], List.not_mem_nil⟩

instance : Inhabited CString := ⟨empty⟩

/-- `strcat`. -/
def append (s t : CString) : CString :=
  ⟨s.bytes ++ t.bytes, by simp [s.noNul, t.noNul]⟩

instance : Append CString := ⟨append⟩

/-- What `snprintf` keeps of a text when its buffer has room for `n` characters and the NUL. -/
def truncate (s : CString) (n : ℕ) : CString :=
  ⟨s.bytes.take n, fun h => s.noNul (List.mem_of_mem_take h)⟩

@[simp] theorem bytes_append (s t : CString) : (s ++ t).bytes = s.bytes ++ t.bytes := rfl

theorem eq_of_bytes {s t : CString} (h : s.bytes = t.bytes) : s = t := by
  cases s
  cases t
  simpa using h

theorem append_right_inj {s t u : CString} : s ++ t = s ++ u ↔ t = u := by
  constructor
  · intro h
    exact eq_of_bytes (List.append_cancel_left (congrArg bytes h))
  · rintro rfl
    rfl

end CString

/-! ### Byte order -/

/-- The four bytes of an integer in the other order. -/
def swapBytes (value : UInt32) : UInt32 :=
  ((value &&& 0xFF) <<< 24) ||| ((value &&& 0xFF00) <<< 8) |||
    ((value &&& 0xFF0000) >>> 8) ||| ((value &&& 0xFF000000) >>> 24)

/-- A bit keeps its place in its byte, and the byte changes sides. -/
theorem getLsbD_swapBytes (value : UInt32) {i : ℕ} (hi : i < 32) :
    (swapBytes value).toBitVec.getLsbD i = value.toBitVec.getLsbD (8 * (3 - i / 8) + i % 8) := by
  simp only [swapBytes, UInt32.toBitVec_or, UInt32.toBitVec_and, UInt32.toBitVec_shiftLeft,
    UInt32.toBitVec_shiftRight]
  interval_cases i <;> simp

theorem swapBytes_swapBytes (value : UInt32) : swapBytes (swapBytes value) = value := by
  apply UInt32.toBitVec_inj.1
  apply BitVec.eq_of_getLsbD_eq
  intro i hi
  have hswap : 8 * (3 - i / 8) + i % 8 < 32 := by omega
  rw [getLsbD_swapBytes _ hi, getLsbD_swapBytes _ hswap]
  congr 1
  omega

/-! ### `memory_writer` -/

/-- The vector a `memory_writer` appends to. -/
structure MemoryWriter where
  storage : List UInt8

namespace MemoryWriter

/-- `write<T>`, for a type of `n` bytes. -/
def write (w : MemoryWriter) (n value : ℕ) : MemoryWriter := ⟨w.storage ++ toBytes n value⟩

def writeUint8 (w : MemoryWriter) (value : UInt8) : MemoryWriter := w.write 1 value.toNat
def writeUint16 (w : MemoryWriter) (value : UInt16) : MemoryWriter := w.write 2 value.toNat
def writeUint32 (w : MemoryWriter) (value : UInt32) : MemoryWriter := w.write 4 value.toNat
def writeUint64 (w : MemoryWriter) (value : UInt64) : MemoryWriter := w.write 8 value.toNat

/-- A variable-width integer: one byte below `0xFD`, else a tag byte and 2, 4 or 8 bytes. -/
def writeVarint (w : MemoryWriter) (value : UInt64) : MemoryWriter :=
  if value < 0xFD then w.writeUint8 value.toUInt8
  else if value < 0xFFFF then (w.writeUint8 0xFD).writeUint16 value.toUInt16
  else if value < 0xFFFFFFFF then (w.writeUint8 0xFE).writeUint32 value.toUInt32
  else (w.writeUint8 0xFF).writeUint64 value

/-- A big-endian integer: the bytes are swapped before they are written. -/
def writeUint32Be (w : MemoryWriter) (value : UInt32) : MemoryWriter :=
  w.writeUint32 (swapBytes value)

def writeBuffer (w : MemoryWriter) (buffer : List UInt8) : MemoryWriter := ⟨w.storage ++ buffer⟩

def writeVarintLengthAndBuffer (w : MemoryWriter) (buffer : List UInt8) : MemoryWriter :=
  (w.writeVarint (UInt64.ofNat buffer.length)).writeBuffer buffer

/-- The length of the string, then its bytes without the NUL. -/
def writeString (w : MemoryWriter) (str : CString) : MemoryWriter :=
  ⟨(w.writeVarint (UInt64.ofNat str.bytes.length)).storage ++ str.bytes⟩

end MemoryWriter

/-- The bytes `write_varint` appends. -/
def varintBytes (value : UInt64) : List UInt8 := (MemoryWriter.writeVarint ⟨[]⟩ value).storage

/-- The bytes `write_string` appends. -/
def stringBytes (str : CString) : List UInt8 :=
  varintBytes (UInt64.ofNat str.bytes.length) ++ str.bytes

namespace MemoryWriter

@[simp] theorem storage_write (w : MemoryWriter) (n value : ℕ) :
    (w.write n value).storage = w.storage ++ toBytes n value := rfl

@[simp] theorem storage_writeUint8 (w : MemoryWriter) (value : UInt8) :
    (w.writeUint8 value).storage = w.storage ++ toBytes 1 value.toNat := rfl

@[simp] theorem storage_writeUint16 (w : MemoryWriter) (value : UInt16) :
    (w.writeUint16 value).storage = w.storage ++ toBytes 2 value.toNat := rfl

@[simp] theorem storage_writeUint32 (w : MemoryWriter) (value : UInt32) :
    (w.writeUint32 value).storage = w.storage ++ toBytes 4 value.toNat := rfl

@[simp] theorem storage_writeUint64 (w : MemoryWriter) (value : UInt64) :
    (w.writeUint64 value).storage = w.storage ++ toBytes 8 value.toNat := rfl

@[simp] theorem storage_writeVarint (w : MemoryWriter) (value : UInt64) :
    (w.writeVarint value).storage = w.storage ++ varintBytes value := by
  unfold varintBytes writeVarint
  split_ifs <;> simp [writeUint8, writeUint16, writeUint32, writeUint64]

@[simp] theorem storage_writeString (w : MemoryWriter) (str : CString) :
    (w.writeString str).storage = w.storage ++ stringBytes str := by
  simp [writeString, stringBytes]

@[simp] theorem storage_writeUint32Be (w : MemoryWriter) (value : UInt32) :
    (w.writeUint32Be value).storage = w.storage ++ toBytes 4 (swapBytes value).toNat := rfl

@[simp] theorem storage_writeVarintLengthAndBuffer (w : MemoryWriter) (buffer : List UInt8) :
    (w.writeVarintLengthAndBuffer buffer).storage =
      w.storage ++ (varintBytes (UInt64.ofNat buffer.length) ++ buffer) := by
  simp [writeVarintLengthAndBuffer, writeBuffer]

end MemoryWriter

/-! ### `memory_reader` -/

/-- A reader: the vector it reads and its position. -/
structure MemoryReader where
  storage : List UInt8
  pos : UInt64 := 0

/-- What a read does: its result, the output variable afterwards, the reader afterwards. -/
structure ReadResult (α : Type) where
  ok : Bool
  value : α
  reader : MemoryReader

namespace MemoryReader

/-- The bytes of `read<T>` and `read_buffer`: fails when the sum of position and size, a `size_t`,
is beyond the end. -/
def read (r : MemoryReader) (size : UInt64) : Option (List UInt8 × MemoryReader) :=
  if (r.pos + size).toNat > r.storage.length then none
  else some ((r.storage.drop r.pos.toNat).take size.toNat, { r with pos := r.pos + size })

def readUint8 (r : MemoryReader) (value : UInt8) : ReadResult UInt8 :=
  match r.read 1 with
  | none => ⟨false, value, r⟩
  | some (b, r) => ⟨true, UInt8.ofNat (ofBytes b), r⟩

def readUint16 (r : MemoryReader) (value : UInt16) : ReadResult UInt16 :=
  match r.read 2 with
  | none => ⟨false, value, r⟩
  | some (b, r) => ⟨true, UInt16.ofNat (ofBytes b), r⟩

def readUint32 (r : MemoryReader) (value : UInt32) : ReadResult UInt32 :=
  match r.read 4 with
  | none => ⟨false, value, r⟩
  | some (b, r) => ⟨true, UInt32.ofNat (ofBytes b), r⟩

def readUint64 (r : MemoryReader) (value : UInt64) : ReadResult UInt64 :=
  match r.read 8 with
  | none => ⟨false, value, r⟩
  | some (b, r) => ⟨true, UInt64.ofNat (ofBytes b), r⟩

def readVarint (r : MemoryReader) (value : UInt64) : ReadResult UInt64 :=
  let first := r.readUint8 0
  if !first.ok then ⟨false, value, first.reader⟩
  else if first.value < 0xFD then ⟨true, first.value.toUInt64, first.reader⟩
  else if first.value = 0xFD then
    let v := first.reader.readUint16 0
    if !v.ok then ⟨false, value, v.reader⟩ else ⟨true, v.value.toUInt64, v.reader⟩
  else if first.value = 0xFE then
    let v := first.reader.readUint32 0
    if !v.ok then ⟨false, value, v.reader⟩ else ⟨true, v.value.toUInt64, v.reader⟩
  else first.reader.readUint64 value

/-- An empty string leaves the variable as it was. -/
def readString (r : MemoryReader) (str : List UInt8) : ReadResult (List UInt8) :=
  let length := r.readVarint 0
  if !length.ok then ⟨false, str, length.reader⟩
  else match length.reader.read length.value with
    | none => ⟨false, str, length.reader⟩
    | some (b, r) => ⟨true, if length.value > 0 then b else str, r⟩

/-- A big-endian integer: the bytes are swapped after they are read. -/
def readUint32Be (r : MemoryReader) (value : UInt32) : ReadResult UInt32 :=
  let v := r.readUint32 0
  if !v.ok then ⟨false, value, v.reader⟩
  else ⟨true, ((v.value &&& 0xFF) <<< 24) ||| ((v.value &&& 0xFF00) <<< 8) |||
    ((v.value &&& 0xFF0000) >>> 8) ||| ((v.value &&& 0xFF000000) >>> 24), v.reader⟩

/-- `read_buffer` into a vector, which is emptied before the check. -/
def readBuffer (r : MemoryReader) (length : UInt64) : ReadResult (List UInt8) :=
  match r.read length with
  | none => ⟨false, [], r⟩
  | some (b, r) => ⟨true, b, r⟩

/-- `read_buffer` into memory that has enough space. -/
def readBufferTo (r : MemoryReader) (buffer : List UInt8) (length : UInt64) :
    ReadResult (List UInt8) :=
  match r.read length with
  | none => ⟨false, buffer, r⟩
  | some (b, r) => ⟨true, b ++ buffer.drop b.length, r⟩

def readVarintLengthAndBuffer (r : MemoryReader) (buffer : List UInt8) :
    ReadResult (List UInt8) :=
  let length := r.readVarint 0
  if !length.ok then ⟨false, buffer, length.reader⟩ else length.reader.readBuffer length.value

/-- The bytes `l` are what is left to read, and the vector fits into the address space. -/
def Before (r : MemoryReader) (l : List UInt8) : Prop :=
  r.storage.length < 2 ^ 64 ∧ r.pos.toNat ≤ r.storage.length ∧ r.storage.drop r.pos.toNat = l

theorem before_start {storage : List UInt8} (h : storage.length < 2 ^ 64) :
    Before { storage := storage } storage :=
  ⟨h, Nat.zero_le _, rfl⟩

theorem Before.length_lt {r : MemoryReader} {l : List UInt8} (h : r.Before l) :
    l.length < 2 ^ 64 := by
  obtain ⟨h1, -, h3⟩ := h
  rw [← h3, List.length_drop]
  omega

/-- A reader with nothing left to read is at the end of its vector. -/
theorem Before.pos_eq {r : MemoryReader} (h : r.Before []) : r.pos.toNat = r.storage.length :=
  Nat.le_antisymm h.2.1 (List.drop_eq_nil_iff.1 h.2.2)

/-- Reading as many bytes as a known piece has returns the piece. -/
theorem read_spec {r : MemoryReader} {b l : List UInt8} (h : r.Before (b ++ l)) {size : UInt64}
    (hs : size.toNat = b.length) :
    ∃ r', r.read size = some (b, r') ∧ r'.storage = r.storage ∧ r'.Before l := by
  obtain ⟨h1, h2, h3⟩ := h
  have hlen : r.storage.length - r.pos.toNat = b.length + l.length := by
    rw [← List.length_drop, h3, List.length_append]
  have hpos : (r.pos + size).toNat = r.pos.toNat + b.length := by
    rw [UInt64.toNat_add, hs, Nat.mod_eq_of_lt (by omega)]
  refine ⟨{ r with pos := r.pos + size }, ?_, rfl, h1, ?_, ?_⟩
  · rw [read, if_neg (by omega), h3, hs, List.take_left]
  · change (r.pos + size).toNat ≤ r.storage.length
    omega
  · rw [hpos, ← List.drop_drop, h3, List.drop_left]

/-- The number read back from the bytes of a written one. -/
theorem read_toBytes {r : MemoryReader} {n v : ℕ} {l : List UInt8} (h : r.Before (toBytes n v ++ l))
    (hv : v < 256 ^ n) (size : UInt64) (hs : size.toNat = n) :
    ∃ b r', r.read size = some (b, r') ∧ ofBytes b = v ∧ r'.storage = r.storage ∧ r'.Before l := by
  obtain ⟨r', h1, h2, h3⟩ := @read_spec _ _ _ h size (by rw [hs, length_toBytes])
  exact ⟨toBytes n v, r', h1, ofBytes_toBytes hv, h2, h3⟩

theorem readUint8_spec {r : MemoryReader} {v : UInt8} {l : List UInt8}
    (h : r.Before (toBytes 1 v.toNat ++ l)) (x : UInt8) :
    ∃ r', r.readUint8 x = ⟨true, v, r'⟩ ∧ r'.storage = r.storage ∧ r'.Before l := by
  obtain ⟨b, r', h1, h2, h3⟩ := read_toBytes h v.toNat_lt 1 rfl
  exact ⟨r', by simp [readUint8, h1, h2], h3⟩

theorem readUint16_spec {r : MemoryReader} {v : UInt16} {l : List UInt8}
    (h : r.Before (toBytes 2 v.toNat ++ l)) (x : UInt16) :
    ∃ r', r.readUint16 x = ⟨true, v, r'⟩ ∧ r'.storage = r.storage ∧ r'.Before l := by
  obtain ⟨b, r', h1, h2, h3⟩ := read_toBytes h v.toNat_lt 2 rfl
  exact ⟨r', by simp [readUint16, h1, h2], h3⟩

theorem readUint32_spec {r : MemoryReader} {v : UInt32} {l : List UInt8}
    (h : r.Before (toBytes 4 v.toNat ++ l)) (x : UInt32) :
    ∃ r', r.readUint32 x = ⟨true, v, r'⟩ ∧ r'.storage = r.storage ∧ r'.Before l := by
  obtain ⟨b, r', h1, h2, h3⟩ := read_toBytes h v.toNat_lt 4 rfl
  exact ⟨r', by simp [readUint32, h1, h2], h3⟩

theorem readUint64_spec {r : MemoryReader} {v : UInt64} {l : List UInt8}
    (h : r.Before (toBytes 8 v.toNat ++ l)) (x : UInt64) :
    ∃ r', r.readUint64 x = ⟨true, v, r'⟩ ∧ r'.storage = r.storage ∧ r'.Before l := by
  obtain ⟨b, r', h1, h2, h3⟩ := read_toBytes h v.toNat_lt 8 rfl
  exact ⟨r', by simp [readUint64, h1, h2], h3⟩

theorem toUInt64_toUInt8 {v : UInt64} (h : v.toNat < 0xFD) : v.toUInt8.toUInt64 = v := by
  apply UInt64.toNat_inj.1
  rw [UInt8.toNat_toUInt64, UInt64.toNat_toUInt8]
  omega

theorem toUInt64_toUInt16 {v : UInt64} (h : v.toNat < 0xFFFF) : v.toUInt16.toUInt64 = v := by
  apply UInt64.toNat_inj.1
  rw [UInt16.toNat_toUInt64, UInt64.toNat_toUInt16]
  omega

theorem toUInt64_toUInt32 {v : UInt64} (h : v.toNat < 0xFFFFFFFF) :
    v.toUInt32.toUInt64 = v := by
  apply UInt64.toNat_inj.1
  rw [UInt32.toNat_toUInt64, UInt64.toNat_toUInt32]
  omega

/-- The three tests of the writer and of the reader agree at every width boundary. -/
theorem readVarint_spec {r : MemoryReader} {v : UInt64} {l : List UInt8}
    (h : r.Before (varintBytes v ++ l)) (x : UInt64) :
    ∃ r', r.readVarint x = ⟨true, v, r'⟩ ∧ r'.storage = r.storage ∧ r'.Before l := by
  unfold varintBytes MemoryWriter.writeVarint at h
  split_ifs at h with h8 h16 h32 <;>
    simp only [MemoryWriter.storage_writeUint8, MemoryWriter.storage_writeUint32,
      MemoryWriter.storage_writeUint64, MemoryWriter.writeUint16, MemoryWriter.storage_write,
      List.nil_append, List.append_assoc] at h
  · obtain ⟨r₁, h1, h2, h3⟩ := readUint8_spec h 0
    have hv := toUInt64_toUInt8 (UInt64.lt_iff_toNat_lt.1 h8)
    have hlt : v.toUInt8 < 0xFD := by
      rw [UInt8.lt_iff_toNat_lt, ← UInt8.toNat_toUInt64, hv]
      exact UInt64.lt_iff_toNat_lt.1 h8
    exact ⟨r₁, by simp [readVarint, h1, hlt, hv], h2, h3⟩
  · obtain ⟨r₁, h1, h2, h3⟩ := readUint8_spec h 0
    obtain ⟨r₂, h4, h5, h6⟩ := readUint16_spec h3 0
    have hv := toUInt64_toUInt16 (UInt64.lt_iff_toNat_lt.1 h16)
    exact ⟨r₂, by simp [readVarint, h1, h4, hv], h5.trans h2, h6⟩
  · obtain ⟨r₁, h1, h2, h3⟩ := readUint8_spec h 0
    obtain ⟨r₂, h4, h5, h6⟩ := readUint32_spec h3 0
    have hv := toUInt64_toUInt32 (UInt64.lt_iff_toNat_lt.1 h32)
    exact ⟨r₂, by simp [readVarint, h1, h4, hv], h5.trans h2, h6⟩
  · obtain ⟨r₁, h1, h2, h3⟩ := readUint8_spec h 0
    obtain ⟨r₂, h4, h5, h6⟩ := readUint64_spec h3 x
    exact ⟨r₂, by simp [readVarint, h1, h4], h5.trans h2, h6⟩

theorem readUint32Be_spec {r : MemoryReader} {v : UInt32} {l : List UInt8}
    (h : r.Before (toBytes 4 (swapBytes v).toNat ++ l)) (x : UInt32) :
    ∃ r', r.readUint32Be x = ⟨true, v, r'⟩ ∧ r'.storage = r.storage ∧ r'.Before l := by
  obtain ⟨r', h1, h2⟩ := readUint32_spec h 0
  refine ⟨r', ?_, h2⟩
  have hread : r.readUint32Be x = ⟨true, swapBytes (swapBytes v), r'⟩ := by
    simp only [readUint32Be, h1]
    rfl
  rw [hread, swapBytes_swapBytes]

/-- A length, a `size_t`, and as many bytes, which fit into the address space. -/
theorem readLength_spec {r : MemoryReader} {b l : List UInt8}
    (h : r.Before (varintBytes (UInt64.ofNat b.length) ++ b ++ l)) :
    (UInt64.ofNat b.length).toNat = b.length ∧
      ∃ r₁ r₂, r.readVarint 0 = ⟨true, UInt64.ofNat b.length, r₁⟩ ∧
        r₁.read (UInt64.ofNat b.length) = some (b, r₂) ∧ r₂.storage = r.storage ∧ r₂.Before l := by
  rw [List.append_assoc] at h
  obtain ⟨r₁, h1, h2, h3⟩ := readVarint_spec h 0
  have hlen : b.length < 2 ^ 64 := by
    have hlt := h3.length_lt
    rw [List.length_append] at hlt
    omega
  have hsize : (UInt64.ofNat b.length).toNat = b.length := UInt64.toNat_ofNat_of_lt' hlen
  obtain ⟨r₂, h4, h5, h6⟩ := read_spec h3 hsize
  exact ⟨hsize, r₁, r₂, h1, h4, h5.trans h2, h6⟩

theorem readVarintLengthAndBuffer_spec {r : MemoryReader} {b l : List UInt8}
    (h : r.Before (varintBytes (UInt64.ofNat b.length) ++ b ++ l)) (x : List UInt8) :
    ∃ r', r.readVarintLengthAndBuffer x = ⟨true, b, r'⟩ ∧ r'.storage = r.storage ∧
      r'.Before l := by
  obtain ⟨-, r₁, r₂, h1, h2, h3⟩ := readLength_spec h
  exact ⟨r₂, by simp [readVarintLengthAndBuffer, readBuffer, h1, h2], h3⟩

/-- A string is read; an empty one leaves the variable as it was. -/
theorem readString_of_before {r : MemoryReader} {s : CString} {l : List UInt8}
    (h : r.Before (stringBytes s ++ l)) (x : List UInt8) :
    ∃ r', r.readString x = ⟨true, if s.bytes = [] then x else s.bytes, r'⟩ ∧
      r'.storage = r.storage ∧ r'.Before l := by
  obtain ⟨hsize, r₁, r₂, h1, h2, h3⟩ := readLength_spec h
  refine ⟨r₂, ?_, h3⟩
  have hpos : UInt64.ofNat s.bytes.length > 0 ↔ s.bytes ≠ [] := by
    rw [gt_iff_lt, UInt64.lt_iff_toNat_lt, hsize]
    exact List.length_pos_iff
  rw [readString]
  simp only [h1, h2, hpos, Bool.not_true, Bool.false_eq_true, if_false, ne_eq, ite_not]

theorem readString_spec {r : MemoryReader} {s : CString} {l : List UInt8}
    (h : r.Before (stringBytes s ++ l)) :
    ∃ r', r.readString [] = ⟨true, s.bytes, r'⟩ ∧ r'.storage = r.storage ∧ r'.Before l := by
  obtain ⟨r', h1, h2⟩ := readString_of_before h []
  refine ⟨r', ?_, h2⟩
  rw [h1]
  congr 1
  split_ifs with hnil
  · exact hnil.symm
  · rfl

end MemoryReader

end Owlcat
