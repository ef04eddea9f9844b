import OwlcatMonoProfiler.Common.MemoryStream

/-!
# Sequences of typed values

A message is written value by value, and read kind by kind into the variables of the receiver.

* `Kind`: the pairs of a `write_…` and its `read_…`;
* `Item`: a written value, with what the variable it is read into contained before;
* `writeAll`, `readAll`: a message, and what reading it leaves in the variables;
* `readAll_writeAll`: every read of a whole message succeeds, and the last one ends at its end;
* `comesBack_iff`: the variables are equal to the values except where an empty string is read into
  a variable with something in it.
-/

namespace Owlcat

open LittleEndian

/-- The kinds of values with a function to write and one to read them. -/
inductive Kind
  | uint8 | uint16 | uint32 | uint64 | uint32Be | varint | buffer | string

namespace Kind

/-- What is written. -/
def Value : Kind → Type
  | uint8 => UInt8
  | uint16 => UInt16
  | uint32 => UInt32
  | uint64 => UInt64
  | uint32Be => UInt32
  | varint => UInt64
  | buffer => List UInt8
  | string => CString

/-- The variable it is read into.  A `std::string` may contain any bytes. -/
def Variable : Kind → Type
  | uint8 => UInt8
  | uint16 => UInt16
  | uint32 => UInt32
  | uint64 => UInt64
  | uint32Be => UInt32
  | varint => UInt64
  | buffer => List UInt8
  | string => List UInt8

/-- The variable that is equal to a value. -/
def contents : (k : Kind) → k.Value → k.Variable
  | uint8, value => value
  | uint16, value => value
  | uint32, value => value
  | uint64, value => value
  | uint32Be, value => value
  | varint, value => value
  | buffer, value => value
  | string, value => CString.bytes value

def write (w : MemoryWriter) : (k : Kind) → k.Value → MemoryWriter
  | uint8, value => w.writeUint8 value
  | uint16, value => w.writeUint16 value
  | uint32, value => w.writeUint32 value
  | uint64, value => w.writeUint64 value
  | uint32Be, value => w.writeUint32Be value
  | varint, value => w.writeVarint value
  | buffer, value => w.writeVarintLengthAndBuffer value
  | string, value => w.writeString value

def read (r : MemoryReader) : (k : Kind) → k.Variable → ReadResult k.Variable
  | uint8, x => r.readUint8 x
  | uint16, x => r.readUint16 x
  | uint32, x => r.readUint32 x
  | uint64, x => r.readUint64 x
  | uint32Be, x => r.readUint32Be x
  | varint, x => r.readVarint x
  | buffer, x => r.readVarintLengthAndBuffer x
  | string, x => r.readString x

/-- The bytes of a value. -/
def bytes : (k : Kind) → k.Value → List UInt8
  | uint8, value => toBytes 1 (UInt8.toNat value)
  | uint16, value => toBytes 2 (UInt16.toNat value)
  | uint32, value => toBytes 4 (UInt32.toNat value)
  | uint64, value => toBytes 8 (UInt64.toNat value)
  | uint32Be, value => toBytes 4 (swapBytes value).toNat
  | varint, value => varintBytes value
  | buffer, value => (varintBytes (UInt64.ofNat (List.length value))).append value
  | string, value => stringBytes value

theorem storage_write (w : MemoryWriter) (k : Kind) (value : k.Value) :
    (write w k value).storage = w.storage ++ k.bytes value := by
  cases k
  case uint8 => exact w.storage_writeUint8 value
  case uint16 => exact w.storage_writeUint16 value
  case uint32 => exact w.storage_writeUint32 value
  case uint64 => exact w.storage_writeUint64 value
  case uint32Be => exact w.storage_writeUint32Be value
  case varint => exact w.storage_writeVarint value
  case buffer => exact w.storage_writeVarintLengthAndBuffer value
  case string => exact w.storage_writeString value

end Kind

/-- A value of a message, with the earlier contents of the variable that receives it. -/
structure Item where
  kind : Kind
  value : kind.Value
  earlier : kind.Variable

namespace Item

/-- A value is read into a variable that is overwritten, or is empty like the value. -/
def Overwritten : Item → Prop
  | ⟨.string, value, earlier⟩ => CString.bytes value = [] → earlier = ([] : List UInt8)
  | _ => True

/-- What a successful read leaves in the variable. -/
def left : (i : Item) → i.kind.Variable
  | ⟨.string, value, earlier⟩ =>
    if CString.bytes value = [] then earlier else CString.bytes value
  | ⟨k, value, _⟩ => k.contents value

theorem left_eq_iff (i : Item) : i.left = i.kind.contents i.value ↔ i.Overwritten := by
  obtain ⟨k, value, earlier⟩ := i
  cases k
  case string =>
    have hstring : ∀ b x : List UInt8, (if b = [] then x else b) = b ↔ (b = [] → x = []) := by
      intro b x
      split_ifs with hnil
      · rw [hnil]
        exact ⟨fun h _ => h, fun h => h rfl⟩
      · exact iff_of_true rfl fun h => absurd h hnil
    exact hstring (CString.bytes value) earlier
  all_goals exact ⟨fun _ => trivial, fun _ => rfl⟩

/-- One read takes the bytes of the value, and no others. -/
theorem read_spec {r : MemoryReader} {i : Item} {l : List UInt8}
    (h : r.Before (i.kind.bytes i.value ++ l)) :
    ∃ r', Kind.read r i.kind i.earlier = ⟨true, i.left, r'⟩ ∧ r'.storage = r.storage ∧
      r'.Before l := by
  obtain ⟨k, value, earlier⟩ := i
  cases k
  case uint8 => exact MemoryReader.readUint8_spec h earlier
  case uint16 => exact MemoryReader.readUint16_spec h earlier
  case uint32 => exact MemoryReader.readUint32_spec h earlier
  case uint64 => exact MemoryReader.readUint64_spec h earlier
  case uint32Be => exact MemoryReader.readUint32Be_spec h earlier
  case varint => exact MemoryReader.readVarint_spec h earlier
  case buffer => exact @MemoryReader.readVarintLengthAndBuffer_spec r value l h earlier
  case string => exact MemoryReader.readString_of_before h earlier

end Item

/-! ### Whole messages -/

/-- The values are written one behind the other. -/
def writeAll (w : MemoryWriter) (items : List Item) : MemoryWriter :=
  items.foldl (fun w i => Kind.write w i.kind i.value) w

/-- The kinds are read one behind the other, until a read fails.  The variables afterwards, and the
reader. -/
def readAll (r : MemoryReader) : List Item → Option (List (Σ k : Kind, k.Variable) × MemoryReader)
  | [] => some ([], r)
  | i :: items =>
    let v := Kind.read r i.kind i.earlier
    if !v.ok then none
    else (readAll v.reader items).map fun p => (⟨i.kind, v.value⟩ :: p.1, p.2)

theorem storage_writeAll (w : MemoryWriter) (items : List Item) :
    (writeAll w items).storage = w.storage ++ items.flatMap fun i => i.kind.bytes i.value := by
  induction items generalizing w with
  | nil => exact (List.append_nil _).symm
  | cons i items ih =>
    show (writeAll (Kind.write w i.kind i.value) items).storage = _
    rw [ih, Kind.storage_write, List.append_assoc, List.flatMap_cons]

/-- The reads of the kinds of a message go through all of it. -/
theorem readAll_of_before {r : MemoryReader} {items : List Item} {l : List UInt8}
    (h : r.Before ((items.flatMap fun i => i.kind.bytes i.value) ++ l)) :
    ∃ r', readAll r items = some (items.map fun i => ⟨i.kind, i.left⟩, r') ∧
      r'.storage = r.storage ∧ r'.Before l := by
  induction items generalizing r with
  | nil => exact ⟨r, rfl, rfl, h⟩
  | cons i items ih =>
    rw [List.flatMap_cons, List.append_assoc] at h
    obtain ⟨r₁, h1, h2, h3⟩ := Item.read_spec h
    obtain ⟨r₂, h4, h5, h6⟩ := ih h3
    refine ⟨r₂, ?_, h5.trans h2, h6⟩
    rw [readAll]
    simp only [h1, h4, Bool.not_true, Bool.false_eq_true, if_false, Option.map_some, List.map_cons]

/-- Every read of a message that fits into the address space succeeds, and the last one ends at the
end of the storage. -/
theorem readAll_writeAll {items : List Item}
    (h : (writeAll ⟨[]⟩ items).storage.length < 2 ^ 64) :
    ∃ r, readAll { storage := (writeAll ⟨[]⟩ items).storage } items =
        some (items.map fun i => ⟨i.kind, i.left⟩, r) ∧
      r.storage = (writeAll ⟨[]⟩ items).storage ∧ r.pos.toNat = r.storage.length := by
  have hbefore := MemoryReader.before_start h
  have hsplit : (writeAll ⟨[]⟩ items).storage =
      (items.flatMap fun i => i.kind.bytes i.value) ++ [] := by
    rw [storage_writeAll, List.nil_append, List.append_nil]
  rw [MemoryReader.Before, hsplit] at hbefore
  rw [hsplit]
  obtain ⟨r, h1, h2, h3⟩ := readAll_of_before hbefore
  exact ⟨r, h1, h2, h3.pos_eq⟩

/-- The reads of a message succeed, the variables are equal to the values written, and the reader
is at the end of the storage. -/
def ComesBack (items : List Item) : Prop :=
  ∃ r, readAll { storage := (writeAll ⟨[]⟩ items).storage } items =
      some (items.map fun i => ⟨i.kind, i.kind.contents i.value⟩, r) ∧
    r.storage = (writeAll ⟨[]⟩ items).storage ∧ r.pos.toNat = r.storage.length

/-- A message that fits into the address space comes back exactly when every empty string of it is
read into an empty variable. -/
theorem comesBack_iff {items : List Item} (h : (writeAll ⟨[]⟩ items).storage.length < 2 ^ 64) :
    ComesBack items ↔ ∀ i ∈ items, i.Overwritten := by
  have hleft : ∀ i : Item, (⟨i.kind, i.left⟩ : Σ k : Kind, k.Variable) =
      ⟨i.kind, i.kind.contents i.value⟩ ↔ i.Overwritten := by
    intro i
    rw [Sigma.mk.injEq, heq_eq_eq, ← i.left_eq_iff]
    exact and_iff_right rfl
  obtain ⟨r, hread, hstorage, hend⟩ := readAll_writeAll h
  constructor
  · rintro ⟨r', hread', -⟩
    rw [hread, Option.some.injEq, Prod.mk.injEq] at hread'
    intro i hi
    exact (hleft i).1 (List.map_inj_left.1 hread'.1 i hi)
  · intro hitems
    refine ⟨r, ?_, hstorage, hend⟩
    rw [hread, List.map_inj_left.2 fun i hi => (hleft i).2 (hitems i hi)]

/-- A string that overwrites another, and an empty one for an empty variable. -/
theorem comesBack_two :
    ComesBack [⟨.string, CString.ofLit "a", [0x62]⟩,
      ⟨.string, CString.empty, ([] : List UInt8)⟩] := by
  refine (comesBack_iff (by decide)).2 fun i hi => ?_
  rcases List.mem_pair.1 hi with rfl | rfl
  · exact fun h => absurd h (by decide)
  · exact fun _ => rfl

/-- Two strings that a loop reads into one variable.  The second is empty, and the variable keeps
the first. -/
theorem not_comesBack_reused :
    ¬ ∀ items : List Item, (writeAll ⟨[]⟩ items).storage.length < 2 ^ 64 → ComesBack items := by
  intro h
  obtain ⟨r, hread, -⟩ := h [⟨.string, CString.ofLit "a", ([] : List UInt8)⟩,
    ⟨.string, CString.empty, ([0x61] : List UInt8)⟩] (by decide)
  have hvalues : ([⟨.string, ([0x61] : List UInt8)⟩, ⟨.string, ([0x61] : List UInt8)⟩] :
      List (Σ k : Kind, k.Variable)) = [⟨.string, ([0x61] : List UInt8)⟩,
        ⟨.string, ([] : List UInt8)⟩] := (Prod.mk.inj (Option.some.inj hread)).1
  cases hvalues

end Owlcat
