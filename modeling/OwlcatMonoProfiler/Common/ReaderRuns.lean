import OwlcatMonoProfiler.Common.MemoryStream
import OwlcatMonoProfiler.Library.Run

/-!
# Sequences of reads

The calls of a `memory_reader` one after the other, on bytes that need not have been written by a
`memory_writer`.

* `Call`, `call`: the member functions, with the exception of `str.resize`;
* `copied`: the parts of the vector a call copies, as positions and lengths;
* `declared`: the length a call checks, and the reader it checks it with;
* `StaysInside`: what each call should keep to;
* `NoWrap`: the sum of the position and the declared length is a 64-bit number;
* `along_staysInside_iff`: the calls of a run stay inside exactly when no such sum wraps.
-/

namespace Owlcat

namespace MemoryReader

/-! ### Calls -/

/-- The calls of the member functions; the lengths come from the caller. -/
inductive Call
  | uint8
  | uint16
  | uint32
  | uint64
  | uint32Be
  | varint
  | string
  | buffer (length : UInt64)
  | bufferTo (length : UInt64)
  | varintLengthAndBuffer
  deriving DecidableEq

/-- `std::string::max_size` -/
def maxStringSize : ℕ := 2 ^ 63 - 1

/-- `read_string` with the exception of `str.resize`, as `none`. -/
def stringCall (r : MemoryReader) : Option (Bool × MemoryReader) :=
  let str := r.readString []
  if str.ok ∧ maxStringSize < (r.readVarint 0).value.toNat then none
  else some (str.ok, str.reader)

/-- A call: its result and the reader afterwards. -/
def call (r : MemoryReader) : Call → Option (Bool × MemoryReader)
  | .uint8 => some ((r.readUint8 0).ok, (r.readUint8 0).reader)
  | .uint16 => some ((r.readUint16 0).ok, (r.readUint16 0).reader)
  | .uint32 => some ((r.readUint32 0).ok, (r.readUint32 0).reader)
  | .uint64 => some ((r.readUint64 0).ok, (r.readUint64 0).reader)
  | .uint32Be => some ((r.readUint32Be 0).ok, (r.readUint32Be 0).reader)
  | .varint => some ((r.readVarint 0).ok, (r.readVarint 0).reader)
  | .string => r.stringCall
  | .buffer length => some ((r.readBuffer length).ok, (r.readBuffer length).reader)
  | .bufferTo length => some ((r.readBufferTo [] length).ok, (r.readBufferTo [] length).reader)
  | .varintLengthAndBuffer =>
    some ((r.readVarintLengthAndBuffer []).ok, (r.readVarintLengthAndBuffer []).reader)

/-- A call that returns, whatever its result is, can be followed by another one. -/
def step (r : MemoryReader) (c : Call) : Option MemoryReader := (r.call c).map Prod.snd

/-- The position and the length of what `read<T>` or `read_buffer` copies. -/
def copiedBy (r : MemoryReader) (size : UInt64) : List (ℕ × ℕ) :=
  if (r.read size).isSome then [(r.pos.toNat, size.toNat)] else []

/-- What `read_varint` copies: one byte, and the bytes its value says. -/
def copiedByVarint (r : MemoryReader) : List (ℕ × ℕ) :=
  let first := r.readUint8 0
  r.copiedBy 1 ++
    if !first.ok ∨ first.value < 0xFD then []
    else if first.value = 0xFD then first.reader.copiedBy 2
    else if first.value = 0xFE then first.reader.copiedBy 4
    else first.reader.copiedBy 8

/-- What a call that declares its length in front copies. -/
def copiedByVarintLength (r : MemoryReader) : List (ℕ × ℕ) :=
  let length := r.readVarint 0
  r.copiedByVarint ++ if length.ok then length.reader.copiedBy length.value else []

/-- What a call copies. -/
def copied (r : MemoryReader) : Call → List (ℕ × ℕ)
  | .uint8 => r.copiedBy 1
  | .uint16 => r.copiedBy 2
  | .uint32 => r.copiedBy 4
  | .uint64 => r.copiedBy 8
  | .uint32Be => r.copiedBy 4
  | .varint => r.copiedByVarint
  | .string => r.copiedByVarintLength
  | .buffer length => r.copiedBy length
  | .bufferTo length => r.copiedBy length
  | .varintLengthAndBuffer => r.copiedByVarintLength

/-- The length a varint in front declares, with the reader behind it. -/
def declaredByVarint (r : MemoryReader) : Option (MemoryReader × UInt64) :=
  let length := r.readVarint 0
  if length.ok then some (length.reader, length.value) else none

/-- The length a call checks against what is left. -/
def declared (r : MemoryReader) : Call → Option (MemoryReader × UInt64)
  | .uint8 => some (r, 1)
  | .uint16 => some (r, 2)
  | .uint32 => some (r, 4)
  | .uint64 => some (r, 8)
  | .uint32Be => some (r, 4)
  | .varint => none
  | .string => r.declaredByVarint
  | .buffer length => some (r, length)
  | .bufferTo length => some (r, length)
  | .varintLengthAndBuffer => r.declaredByVarint

/-! ### What calls should keep to -/

/-- The bytes that are left. -/
def remaining (r : MemoryReader) : ℕ := r.storage.length - r.pos.toNat

/-- The position of a call does not decrease and stays in the vector, what the call copies is in the
vector, and the call returns false when its declared length is larger than what is left. -/
structure StaysInside (r : MemoryReader) (c : Call) : Prop where
  returns : ∃ ok r', r.call c = some (ok, r') ∧ r.pos ≤ r'.pos ∧
    r'.pos.toNat ≤ r.storage.length ∧ r'.storage = r.storage ∧
    ∀ q n, r.declared c = some (q, n) → q.remaining < n.toNat → ok = false
  copies : ∀ p ∈ r.copied c, p.1 + p.2 ≤ r.storage.length

/-- The sum of the position and the declared length does not wrap. -/
def NoWrap (r : MemoryReader) (c : Call) : Prop :=
  ∀ q n, r.declared c = some (q, n) → q.pos.toNat + n.toNat < 2 ^ 64

/-- The position is in the vector, and the vector not larger than vectors can be. -/
def Inside (r : MemoryReader) : Prop :=
  r.pos.toNat ≤ r.storage.length ∧ r.storage.length < 2 ^ 63

/-- One reader is behind another one of the same vector. -/
structure Behind (r r' : MemoryReader) : Prop where
  storage : r'.storage = r.storage
  le : r.pos ≤ r'.pos
  inside : r'.Inside

/-! ### Single reads -/

section Reads

variable {r : MemoryReader}

theorem Inside.behind_self (h : r.Inside) : r.Behind r := ⟨rfl, UInt64.le_refl _, h⟩

theorem Behind.trans {r' r'' : MemoryReader} (h : r.Behind r') (h' : r'.Behind r'') :
    r.Behind r'' :=
  ⟨h'.storage.trans h.storage, UInt64.le_trans h.le h'.le, h'.inside⟩

/-- A read whose sum does not wrap fails, or copies what it should. -/
theorem Inside.read_cases (h : r.Inside) {size : UInt64}
    (hsize : r.pos.toNat + size.toNat < 2 ^ 64) :
    r.read size = none ∧ r.remaining < size.toNat ∨
      ∃ b r', r.read size = some (b, r') ∧ r.Behind r' ∧
        r.pos.toNat + size.toNat ≤ r.storage.length := by
  obtain ⟨hpos, hlen⟩ := h
  have hsum : (r.pos + size).toNat = r.pos.toNat + size.toNat := by
    rw [UInt64.toNat_add, Nat.mod_eq_of_lt hsize]
  unfold read
  split_ifs with hgt
  · refine Or.inl ⟨rfl, ?_⟩
    unfold remaining
    omega
  · refine Or.inr ⟨_, _, rfl, ⟨rfl, ?_, ?_, hlen⟩, by omega⟩
    · rw [UInt64.le_iff_toNat_le, hsum]
      exact Nat.le_add_right _ _
    · show (r.pos + size).toNat ≤ r.storage.length
      omega

/-- A read whose sum wraps succeeds, although there are fewer bytes left. -/
theorem Inside.read_wraps (h : r.Inside) {size : UInt64}
    (hsize : ¬r.pos.toNat + size.toNat < 2 ^ 64) :
    (r.read size).isSome ∧ r.remaining < size.toNat ∧ maxStringSize < size.toNat := by
  obtain ⟨hpos, hlen⟩ := h
  have hlt := UInt64.toNat_lt size
  have hsum : (r.pos + size).toNat = r.pos.toNat + size.toNat - 2 ^ 64 := by
    rw [UInt64.toNat_add, Nat.mod_eq_sub_mod (by omega), Nat.mod_eq_of_lt (by omega)]
  refine ⟨?_, ?_, ?_⟩
  · rw [read, if_neg (by omega)]
    rfl
  · unfold remaining
    omega
  · unfold maxStringSize
    omega

theorem Inside.small (h : r.Inside) {size : UInt64} (hsize : size.toNat ≤ 8) :
    r.pos.toNat + size.toNat < 2 ^ 64 := by
  obtain ⟨hpos, hlen⟩ := h
  omega

/-- What `read<T>` and `read_buffer` make of a single read. -/
def IsRead (r : MemoryReader) (size : UInt64) (ok : Bool) (r' : MemoryReader) : Prop :=
  r.read size = none ∧ ok = false ∧ r' = r ∨ ∃ b, r.read size = some (b, r') ∧ ok = true

theorem isRead_uint8 (r : MemoryReader) (value : UInt8) :
    r.IsRead 1 (r.readUint8 value).ok (r.readUint8 value).reader := by
  unfold readUint8
  cases h : r.read 1 with
  | none => exact Or.inl ⟨h, rfl, rfl⟩
  | some p => exact Or.inr ⟨p.1, h, rfl⟩

theorem isRead_uint16 (r : MemoryReader) (value : UInt16) :
    r.IsRead 2 (r.readUint16 value).ok (r.readUint16 value).reader := by
  unfold readUint16
  cases h : r.read 2 with
  | none => exact Or.inl ⟨h, rfl, rfl⟩
  | some p => exact Or.inr ⟨p.1, h, rfl⟩

theorem isRead_uint32 (r : MemoryReader) (value : UInt32) :
    r.IsRead 4 (r.readUint32 value).ok (r.readUint32 value).reader := by
  unfold readUint32
  cases h : r.read 4 with
  | none => exact Or.inl ⟨h, rfl, rfl⟩
  | some p => exact Or.inr ⟨p.1, h, rfl⟩

theorem isRead_uint64 (r : MemoryReader) (value : UInt64) :
    r.IsRead 8 (r.readUint64 value).ok (r.readUint64 value).reader := by
  unfold readUint64
  cases h : r.read 8 with
  | none => exact Or.inl ⟨h, rfl, rfl⟩
  | some p => exact Or.inr ⟨p.1, h, rfl⟩

theorem isRead_uint32Be (r : MemoryReader) (value : UInt32) :
    r.IsRead 4 (r.readUint32Be value).ok (r.readUint32Be value).reader := by
  have h := isRead_uint32 r 0
  simp only [readUint32Be]
  cases hok : (r.readUint32 0).ok with
  | false => rwa [hok] at h
  | true => rwa [hok] at h

theorem isRead_buffer (r : MemoryReader) (length : UInt64) :
    r.IsRead length (r.readBuffer length).ok (r.readBuffer length).reader := by
  unfold readBuffer
  cases h : r.read length with
  | none => exact Or.inl ⟨h, rfl, rfl⟩
  | some p => exact Or.inr ⟨p.1, h, rfl⟩

theorem isRead_bufferTo (r : MemoryReader) (buffer : List UInt8) (length : UInt64) :
    r.IsRead length (r.readBufferTo buffer length).ok (r.readBufferTo buffer length).reader := by
  unfold readBufferTo
  cases h : r.read length with
  | none => exact Or.inl ⟨h, rfl, rfl⟩
  | some p => exact Or.inr ⟨p.1, h, rfl⟩

theorem IsRead.behind {size : UInt64} {ok : Bool} {r' : MemoryReader} (hr : r.IsRead size ok r')
    (h : r.Inside) (hsize : r.pos.toNat + size.toNat < 2 ^ 64) : r.Behind r' := by
  rcases hr with ⟨-, -, rfl⟩ | ⟨b, hb, -⟩
  · exact h.behind_self
  · rcases h.read_cases hsize with ⟨hnone, -⟩ | ⟨b', r'', hsome, hr'', -⟩
    · rw [hnone] at hb
      cases hb
    · rw [hsome, Option.some.injEq, Prod.mk.injEq] at hb
      rw [← hb.2]
      exact hr''

/-- The check of the declared length finds out that too few bytes are left, unless the sum wraps. -/
theorem IsRead.checks_iff {size : UInt64} {ok : Bool} {r' : MemoryReader}
    (hr : r.IsRead size ok r') (h : r.Inside) :
    (r.remaining < size.toNat → ok = false) ↔ r.pos.toNat + size.toNat < 2 ^ 64 := by
  constructor
  · intro hcheck
    by_contra hwrap
    obtain ⟨hsome, hleft, -⟩ := h.read_wraps hwrap
    rcases hr with ⟨hnone, -, -⟩ | ⟨b, -, hok⟩
    · rw [hnone] at hsome
      cases hsome
    · rw [hcheck hleft] at hok
      cases hok
  · intro hsize hleft
    rcases hr with ⟨-, hok, -⟩ | ⟨b, hb, -⟩
    · exact hok
    · rcases h.read_cases hsize with ⟨hnone, -⟩ | ⟨b', r'', -, -, hle⟩
      · rw [hnone] at hb
        cases hb
      · unfold remaining at hleft
        omega

theorem Inside.copiedBy (h : r.Inside) {size : UInt64}
    (hsize : r.pos.toNat + size.toNat < 2 ^ 64) :
    ∀ p ∈ r.copiedBy size, p.1 + p.2 ≤ r.storage.length := by
  intro p hp
  unfold MemoryReader.copiedBy at hp
  rcases h.read_cases hsize with ⟨hnone, -⟩ | ⟨b, r', hsome, -, hle⟩
  · rw [hnone] at hp
    cases hp
  · rw [hsome] at hp
    obtain rfl := List.mem_singleton.1 hp
    exact hle

/-! ### Varints -/

/-- A varint is one read, or two of them. -/
theorem Inside.readVarint (h : r.Inside) (value : UInt64) :
    r.Behind (r.readVarint value).reader := by
  have hfirst := (isRead_uint8 r 0).behind h (h.small (by decide))
  have hin := hfirst.inside
  have h16 := (isRead_uint16 (r.readUint8 0).reader 0).behind hin (hin.small (by decide))
  have h32 := (isRead_uint32 (r.readUint8 0).reader 0).behind hin (hin.small (by decide))
  have h64 := (isRead_uint64 (r.readUint8 0).reader value).behind hin (hin.small (by decide))
  simp only [MemoryReader.readVarint]
  split_ifs
  · exact hfirst
  · exact hfirst
  · exact hfirst.trans h16
  · exact hfirst.trans h16
  · exact hfirst.trans h32
  · exact hfirst.trans h32
  · exact hfirst.trans h64

theorem Inside.copiedByVarint (h : r.Inside) :
    ∀ p ∈ r.copiedByVarint, p.1 + p.2 ≤ r.storage.length := by
  have hfirst := (isRead_uint8 r 0).behind h (h.small (by decide))
  have hin := hfirst.inside
  have hcopied : ∀ size : UInt64, size.toNat ≤ 8 →
      ∀ p ∈ (r.readUint8 0).reader.copiedBy size, p.1 + p.2 ≤ r.storage.length := by
    intro size hsize
    rw [← hfirst.storage]
    exact hin.copiedBy (hin.small hsize)
  intro p hp
  rcases List.mem_append.1 hp with hp | hp
  · exact h.copiedBy (h.small (by decide)) p hp
  · split_ifs at hp
    · cases hp
    · exact hcopied 2 (by decide) p hp
    · exact hcopied 4 (by decide) p hp
    · exact hcopied 8 (by decide) p hp

end Reads

/-! ### Calls -/

section Calls

variable {r : MemoryReader}

theorem Inside.copiedByVarintLength (h : r.Inside)
    (hwrap : ∀ q n, r.declaredByVarint = some (q, n) → q.pos.toNat + n.toNat < 2 ^ 64) :
    ∀ p ∈ r.copiedByVarintLength, p.1 + p.2 ≤ r.storage.length := by
  have hlength := h.readVarint 0
  intro p hp
  rcases List.mem_append.1 hp with hp | hp
  · exact h.copiedByVarint p hp
  · split_ifs at hp with hok
    · rw [← hlength.storage]
      exact hlength.inside.copiedBy (hwrap _ _ (if_pos hok)) p hp
    · cases hp

/-- A call that is a single read of the length it declares. -/
theorem staysInside_iff_of_isRead {c : Call} {size : UInt64} {ok : Bool} {r' : MemoryReader}
    (h : r.Inside) (hread : r.IsRead size ok r') (hcall : r.call c = some (ok, r'))
    (hcopied : r.copied c = r.copiedBy size) (hdeclared : r.declared c = some (r, size)) :
    r.StaysInside c ↔ r.NoWrap c := by
  have hwrap : r.NoWrap c ↔ r.pos.toNat + size.toNat < 2 ^ 64 := by
    constructor
    · intro hno
      exact hno r size hdeclared
    · intro hsize q n hqn
      rw [hdeclared, Option.some.injEq, Prod.mk.injEq] at hqn
      rw [← hqn.1, ← hqn.2]
      exact hsize
  rw [hwrap]
  constructor
  · rintro ⟨⟨ok', r'', hcall', -, -, -, hcheck⟩, -⟩
    rw [hcall, Option.some.injEq, Prod.mk.injEq] at hcall'
    rw [← hcall'.1] at hcheck
    exact (hread.checks_iff h).1 (hcheck r size hdeclared)
  · intro hsize
    have hbehind := hread.behind h hsize
    refine ⟨⟨ok, r', hcall, hbehind.le, ?_, hbehind.storage, fun q n hqn => ?_⟩, ?_⟩
    · rw [← hbehind.storage]
      exact hbehind.inside.1
    · rw [hdeclared, Option.some.injEq, Prod.mk.injEq] at hqn
      rw [← hqn.1, ← hqn.2]
      exact (hread.checks_iff h).2 hsize
    · rw [hcopied]
      exact h.copiedBy hsize

/-- A call whose length cannot be read returns false. -/
theorem Behind.staysInside_of_false {c : Call} {r' : MemoryReader}
    (hbehind : r.Behind r') (hcall : r.call c = some (false, r'))
    (hcopied : ∀ p ∈ r.copied c, p.1 + p.2 ≤ r.storage.length) : r.StaysInside c := by
  refine ⟨⟨false, r', hcall, hbehind.le, ?_, hbehind.storage, fun _ _ _ _ => rfl⟩, hcopied⟩
  rw [← hbehind.storage]
  exact hbehind.inside.1

theorem Inside.staysInside_varint (h : r.Inside) : r.StaysInside .varint := by
  have hbehind := h.readVarint 0
  refine ⟨⟨_, _, rfl, hbehind.le, ?_, hbehind.storage, fun q n hqn => ?_⟩, h.copiedByVarint⟩
  · rw [← hbehind.storage]
    exact hbehind.inside.1
  · cases hqn

/-- A call that reads its length, and then as many bytes. -/
theorem staysInside_iff_of_length {c : Call} {ok : Bool} {r' : MemoryReader} (h : r.Inside)
    (hcopied : r.copied c = r.copiedByVarintLength)
    (hdeclared : r.declared c = r.declaredByVarint)
    (hfalse : (r.readVarint 0).ok = false → r.call c = some (false, (r.readVarint 0).reader))
    (hread : (r.readVarint 0).ok → (r.readVarint 0).reader.IsRead (r.readVarint 0).value ok r')
    (hcall : (r.readVarint 0).ok →
      (r.readVarint 0).reader.pos.toNat + (r.readVarint 0).value.toNat < 2 ^ 64 →
        r.call c = some (ok, r'))
    (hwraps : (r.readVarint 0).ok →
      ¬(r.readVarint 0).reader.pos.toNat + (r.readVarint 0).value.toNat < 2 ^ 64 →
        ∀ r'', r.call c ≠ some (false, r'')) :
    r.StaysInside c ↔ r.NoWrap c := by
  have hlength := h.readVarint 0
  constructor
  · rintro ⟨⟨ok', r'', hcall', -, -, -, hcheck⟩, -⟩ q n hqn
    have hleft := hcheck q n hqn
    rw [hdeclared] at hqn
    simp only [declaredByVarint] at hqn
    split_ifs at hqn with hok
    rw [Option.some.injEq, Prod.mk.injEq] at hqn
    rw [← hqn.1, ← hqn.2] at hleft ⊢
    by_contra hwrap
    rw [hleft (hlength.inside.read_wraps hwrap).2.1] at hcall'
    exact hwraps hok hwrap r'' hcall'
  · intro hno
    rw [NoWrap, hdeclared] at hno
    cases hok : (r.readVarint 0).ok with
    | false =>
      refine hlength.staysInside_of_false (hfalse hok) ?_
      rw [hcopied]
      exact h.copiedByVarintLength hno
    | true =>
      have hsize := hno _ _ (if_pos hok)
      have hbehind := hlength.trans ((hread hok).behind hlength.inside hsize)
      refine ⟨⟨ok, r', hcall hok hsize, hbehind.le, ?_, hbehind.storage, fun q n hqn => ?_⟩, ?_⟩
      · rw [← hbehind.storage]
        exact hbehind.inside.1
      · rw [hdeclared, declaredByVarint, if_pos hok, Option.some.injEq, Prod.mk.injEq] at hqn
        rw [← hqn.1, ← hqn.2]
        exact ((hread hok).checks_iff hlength.inside).2 hsize
      · rw [hcopied]
        exact h.copiedByVarintLength hno

theorem isRead_string (hok : (r.readVarint 0).ok) (str : List UInt8) :
    (r.readVarint 0).reader.IsRead (r.readVarint 0).value (r.readString str).ok
      (r.readString str).reader := by
  simp only [readString, hok, Bool.not_true, Bool.false_eq_true, if_false]
  cases h : (r.readVarint 0).reader.read (r.readVarint 0).value with
  | none => exact Or.inl ⟨h, rfl, rfl⟩
  | some p => exact Or.inr ⟨p.1, h, rfl⟩

/-- A length that makes the sum wrap is too large for `str.resize`. -/
theorem Inside.staysInside_string_iff (h : r.Inside) :
    r.StaysInside .string ↔ r.NoWrap .string := by
  have hlength := h.readVarint 0
  refine staysInside_iff_of_length h rfl rfl (fun hok => ?_) (fun hok => isRead_string hok [])
    (fun hok hsize => ?_) (fun hok hwrap r'' => ?_)
  · have hfalse : (r.readString []).ok = false ∧
        (r.readString []).reader = (r.readVarint 0).reader := by
      simp only [readString, hok, Bool.not_false, if_true, and_self]
    show r.stringCall = _
    rw [stringCall, hfalse.1, hfalse.2]
    rfl
  · show r.stringCall = _
    apply if_neg
    rintro ⟨hsome, hlarge⟩
    rcases isRead_string hok [] with ⟨-, hnone, -⟩ | ⟨b, hb, -⟩
    · rw [hnone] at hsome
      cases hsome
    · rcases hlength.inside.read_cases hsize with ⟨hnone, -⟩ | ⟨-, -, -, -, hle⟩
      · rw [hnone] at hb
        cases hb
      · have := hlength.inside.2
        unfold maxStringSize at hlarge
        omega
  · show r.stringCall ≠ _
    obtain ⟨hsome, -, hlarge⟩ := hlength.inside.read_wraps hwrap
    rcases isRead_string hok [] with ⟨hnone, -, -⟩ | ⟨-, -, htrue⟩
    · rw [hnone] at hsome
      cases hsome
    · unfold stringCall
      simp only
      rw [if_pos ⟨htrue, hlarge⟩]
      exact Option.some_ne_none _ |>.symm

theorem Inside.staysInside_varintLengthAndBuffer_iff (h : r.Inside) :
    r.StaysInside .varintLengthAndBuffer ↔ r.NoWrap .varintLengthAndBuffer := by
  have hlength := h.readVarint 0
  have hbuffer := isRead_buffer (r.readVarint 0).reader (r.readVarint 0).value
  have hcall : (r.readVarint 0).ok → r.call .varintLengthAndBuffer =
      some (((r.readVarint 0).reader.readBuffer (r.readVarint 0).value).ok,
        ((r.readVarint 0).reader.readBuffer (r.readVarint 0).value).reader) := by
    intro hok
    simp only [call, readVarintLengthAndBuffer, hok, Bool.not_true, Bool.false_eq_true, if_false]
  refine staysInside_iff_of_length h rfl rfl (fun hok => ?_) (fun _ => hbuffer)
    (fun hok _ => hcall hok) (fun hok hwrap r'' => ?_)
  · simp only [call, readVarintLengthAndBuffer, hok, Bool.not_false, if_true]
  · rw [hcall hok]
    rcases hbuffer with ⟨hnone, -, -⟩ | ⟨-, -, htrue⟩
    · have hsome := (hlength.inside.read_wraps hwrap).1
      rw [hnone] at hsome
      cases hsome
    · rw [htrue]
      intro heq
      cases heq

/-- **One call** stays inside exactly when the sum of the position and its declared length does not
wrap. -/
theorem Inside.staysInside_iff (h : r.Inside) (c : Call) : r.StaysInside c ↔ r.NoWrap c := by
  cases c with
  | uint8 => exact staysInside_iff_of_isRead h (isRead_uint8 r 0) rfl rfl rfl
  | uint16 => exact staysInside_iff_of_isRead h (isRead_uint16 r 0) rfl rfl rfl
  | uint32 => exact staysInside_iff_of_isRead h (isRead_uint32 r 0) rfl rfl rfl
  | uint64 => exact staysInside_iff_of_isRead h (isRead_uint64 r 0) rfl rfl rfl
  | uint32Be => exact staysInside_iff_of_isRead h (isRead_uint32Be r 0) rfl rfl rfl
  | varint => exact iff_of_true h.staysInside_varint fun _ _ hqn => by cases hqn
  | string => exact h.staysInside_string_iff
  | buffer length => exact staysInside_iff_of_isRead h (isRead_buffer r length) rfl rfl rfl
  | bufferTo length => exact staysInside_iff_of_isRead h (isRead_bufferTo r [] length) rfl rfl rfl
  | varintLengthAndBuffer => exact h.staysInside_varintLengthAndBuffer_iff

theorem StaysInside.inside {c : Call} {r' : MemoryReader} (h : r.StaysInside c) (hin : r.Inside)
    (hstep : r.step c = some r') : r'.Inside := by
  obtain ⟨ok, r'', hcall, -, hpos, hstorage, -⟩ := h.returns
  rw [step, hcall, Option.map_some, Option.some.injEq] at hstep
  rw [← hstep]
  exact ⟨hstorage ▸ hpos, hstorage ▸ hin.2⟩

end Calls

/-- **The calls of a run stay inside** exactly when none of them declares a length whose sum with
the position wraps. -/
theorem along_staysInside_iff {storage : List UInt8} (h : storage.length < 2 ^ 63)
    (calls : List Call) :
    Run.Along step StaysInside { storage := storage } calls ↔
      Run.Along step NoWrap { storage := storage } calls :=
  Run.along_congr (I := Inside) (fun _ c hr => hr.staysInside_iff c)
    (fun _ _ _ hr hstays hstep => hstays.inside hr hstep) ⟨Nat.zero_le _, h⟩ calls

/-- A byte, and a varint that is `2 ^ 64 - 10`. -/
def hugeLength : List UInt8 := [0, 0xFF, 0xF6, 0xFF, 0xFF, 0xFF, 0xFF, 0xFF, 0xFF, 0xFF]

theorem along_staysInside_iff_hugeLength :
    Run.Along step StaysInside { storage := hugeLength } [.uint8, .varint] ↔
      Run.Along step NoWrap { storage := hugeLength } [.uint8, .varint] :=
  along_staysInside_iff (by decide) _

/-- The call succeeds, and the reader is back at the start of the vector. -/
theorem position_wraps :
    ((Run.run step { storage := hugeLength } [.uint8]).map fun r => r.pos) = some 1 ∧
    ((Run.run step { storage := hugeLength } [.uint8, .varintLengthAndBuffer]).map
      fun r => r.pos) = some 0 ∧
    ¬Run.Along step StaysInside { storage := hugeLength } [.uint8, .varintLengthAndBuffer] := by
  refine ⟨by decide, by decide, fun h => ?_⟩
  have hstep : step { storage := hugeLength } .uint8 = some { storage := hugeLength, pos := 1 } :=
    rfl
  obtain ⟨⟨ok, r', hcall, hle, -⟩, -⟩ := (h.2 _ hstep).1
  have hpos : ((call { storage := hugeLength, pos := 1 } .varintLengthAndBuffer).map
      fun p => p.2.pos) = some 0 := by decide
  rw [hcall, Option.map_some, Option.some.injEq] at hpos
  rw [hpos] at hle
  exact absurd hle (by decide)

end MemoryReader

end Owlcat
