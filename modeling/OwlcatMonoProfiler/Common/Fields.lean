import OwlcatMonoProfiler.Common.ReaderRuns

/-!
# The fields of a payload

What a read makes of bytes that may end too early.

* `rest`: the bytes a reader has not read yet;
* `bytesField`, `wordField`, `varintField`, `stringField`: the field in front of a list of bytes,
  with what is behind it, if all of its bytes are there;
* `Finds`: a read returns the field and goes behind it, or fails;
* `Overflows`: the string in front declares a length whose sum with the position is no 64-bit
  number.  Its read leaves by an exception (`stringCall_of_overflows`), any other read of a string
  finds the field (`finds_string`).
-/

namespace Owlcat

open LittleEndian

/-! ### Fields -/

section Fields

/-- `n` bytes. -/
def bytesField (n : ℕ) (l : List UInt8) : Option (List UInt8 × List UInt8) :=
  if n ≤ l.length then some (l.take n, l.drop n) else none

/-- A number of `n` bytes. -/
def wordField (n : ℕ) (l : List UInt8) : Option (ℕ × List UInt8) :=
  (bytesField n l).map fun p => (ofBytes p.1, p.2)

/-- A varint. -/
def varintField : List UInt8 → Option (UInt64 × List UInt8)
  | [] => none
  | tag :: l =>
    if tag < 0xFD then some (tag.toUInt64, l)
    else (wordField (if tag = 0xFD then 2 else if tag = 0xFE then 4 else 8) l).map fun p =>
      (UInt64.ofNat p.1, p.2)

/-- A varint, and as many bytes. -/
def stringField (l : List UInt8) : Option (List UInt8 × List UInt8) :=
  (varintField l).bind fun p => bytesField p.1.toNat p.2

/-- `n` fields of one kind. -/
def listField {α : Type} (field : List UInt8 → Option (α × List UInt8)) :
    ℕ → List UInt8 → Option (List α × List UInt8)
  | 0, l => some ([], l)
  | n + 1, l =>
    (field l).bind fun x => (listField field n x.2).map fun xs => (x.1 :: xs.1, xs.2)

/-- A string is in front whose length reaches over the end of the numbers a position can be, in a
payload of `size` bytes. -/
def Overflows (size : ℕ) (l : List UInt8) : Prop :=
  ∃ p ∈ varintField l, 2 ^ 64 ≤ size - p.2.length + p.1.toNat

variable {n : ℕ} {l b rest : List UInt8}

theorem bytesField_eq_some :
    bytesField n l = some (b, rest) ↔ n ≤ l.length ∧ b = l.take n ∧ rest = l.drop n := by
  unfold bytesField
  split_ifs with h
  · simp only [Option.some.injEq, Prod.mk.injEq, h, true_and, eq_comm]
  · simp [h]

theorem bytesField_eq_none : bytesField n l = none ↔ l.length < n := by
  unfold bytesField
  split_ifs with h
  · simpa using h
  · simpa using h

/-- A field of at least one byte ends behind its start. -/
theorem length_of_varintField {v : UInt64} (h : varintField l = some (v, rest)) :
    rest.length < l.length := by
  cases l with
  | nil => cases h
  | cons tag l =>
    rw [varintField] at h
    split_ifs at h
    · cases h
      exact Nat.lt_succ_self _
    all_goals
      obtain ⟨p, hp, heq⟩ := Option.map_eq_some_iff.1 h
      obtain ⟨q, hq, rfl⟩ := Option.map_eq_some_iff.1 hp
      obtain ⟨-, -, hdrop⟩ := bytesField_eq_some.1 hq
      cases heq
      rw [hdrop, List.length_drop, List.length_cons]
      omega

theorem length_of_stringField (h : stringField l = some (b, rest)) : rest.length < l.length := by
  obtain ⟨⟨v, l'⟩, hv, hb⟩ := Option.bind_eq_some_iff.1 h
  have hlt := length_of_varintField hv
  obtain ⟨-, -, rfl⟩ := bytesField_eq_some.1 hb
  rw [List.length_drop]
  exact lt_of_le_of_lt (Nat.sub_le _ _) hlt

/-- A list ends where its fields end, and has as many elements as are declared. -/
theorem length_of_listField {α : Type} {field : List UInt8 → Option (α × List UInt8)}
    (cost : α → ℕ)
    (hfield : ∀ l x rest, field l = some (x, rest) → cost x + rest.length ≤ l.length)
    {xs : List α} (h : listField field n l = some (xs, rest)) :
    (xs.map cost).sum + rest.length ≤ l.length ∧ xs.length = n := by
  induction n generalizing l xs with
  | zero =>
    cases h
    simp
  | succ n ih =>
    obtain ⟨x, hx, hmap⟩ := Option.bind_eq_some_iff.1 h
    obtain ⟨ys, hys, heq⟩ := Option.map_eq_some_iff.1 hmap
    cases heq
    obtain ⟨hsum, hlen⟩ := ih hys
    have hcost := hfield l x.1 x.2 hx
    rw [List.map_cons, List.sum_cons, List.length_cons]
    omega

/-- Without the eight bytes of the widest one, a varint is there or is the last thing. -/
theorem length_of_varintField_eq_none (h : varintField l = none) : l.length ≤ 8 := by
  cases l with
  | nil => exact Nat.zero_le _
  | cons tag l =>
    rw [varintField] at h
    split_ifs at h
    all_goals
      rw [wordField, Option.map_map, Option.map_eq_none_iff, bytesField_eq_none] at h
      rw [List.length_cons]
      omega

/-- A varint of at most eight bytes is small. -/
theorem toNat_lt_of_varintField {v : UInt64} (h : varintField l = some (v, rest))
    (hl : l.length ≤ 8) : v.toNat < 2 ^ 32 := by
  have hword : ∀ {m : ℕ} {l' : List UInt8}, m ≤ 4 →
      ((wordField m l').map fun p => (UInt64.ofNat p.1, p.2)) = some (v, rest) →
        v.toNat < 2 ^ 32 := by
    intro m l' hm hv
    obtain ⟨p, hp, heq⟩ := Option.map_eq_some_iff.1 hv
    obtain ⟨q, hq, rfl⟩ := Option.map_eq_some_iff.1 hp
    obtain ⟨hle, htake, -⟩ := bytesField_eq_some.1 hq
    cases heq
    have hlt := ofBytes_lt q.1
    have hlen : q.1.length = m := by rw [htake, List.length_take_of_le hle]
    have hpow : 256 ^ q.1.length ≤ 2 ^ 32 := by
      rw [hlen]
      exact (Nat.pow_le_pow_right (by decide) hm).trans (by decide)
    rw [UInt64.toNat_ofNat']
    exact lt_of_le_of_lt (Nat.mod_le _ _) (lt_of_lt_of_le hlt hpow)
  cases l with
  | nil => cases h
  | cons tag l =>
    rw [varintField] at h
    split_ifs at h
    · cases h
      have := tag.toNat_lt
      rw [UInt8.toNat_toUInt64]
      omega
    · exact hword (by decide) h
    · exact hword (by decide) h
    · -- the eight bytes of the number and the one in front are more than there are
      obtain ⟨p, hp, -⟩ := Option.map_eq_some_iff.1 h
      obtain ⟨q, hq, -⟩ := Option.map_eq_some_iff.1 hp
      have hle := (bytesField_eq_some.1 hq).1
      rw [List.length_cons] at hl
      omega

theorem not_overflows_of_stringField {size : ℕ} (hsize : size < 2 ^ 63) (hl : l.length ≤ size)
    (h : stringField l = some (b, rest)) : ¬Overflows size l := by
  obtain ⟨⟨v, l'⟩, hv, hb⟩ := Option.bind_eq_some_iff.1 h
  have hle := (bytesField_eq_some.1 hb).1
  have hlt := length_of_varintField hv
  rintro ⟨p, hp, hover⟩
  rw [Option.mem_def, hv, Option.some.injEq] at hp
  rw [← hp] at hover
  simp only at hover hle
  omega

/-- Only eight bytes cannot declare such a length. -/
theorem not_overflows_of_length_le {size : ℕ} (hsize : size < 2 ^ 63) (hl : l.length ≤ 8) :
    ¬Overflows size l := by
  rintro ⟨p, hp, hover⟩
  have hlt := toNat_lt_of_varintField hp hl
  omega

end Fields

namespace MemoryReader

/-! ### Reads -/

/-- The bytes that are not read yet. -/
def rest (r : MemoryReader) : List UInt8 := r.storage.drop r.pos.toNat

/-- A read finds the field in front of the bytes that are left and goes behind it, or fails. -/
structure Finds {α : Type} (r : MemoryReader) (res : ReadResult α)
    (field : Option (α × List UInt8)) : Prop where
  behind : r.Behind res.reader
  found : ∀ p, field = some p → res.ok = true ∧ res.value = p.1 ∧ res.reader.rest = p.2
  missing : field = none → res.ok = false

section Finds

variable {r : MemoryReader}

theorem length_rest (r : MemoryReader) : r.rest.length = r.remaining := List.length_drop

theorem Behind.length_le {r' : MemoryReader} (h : r.Behind r') :
    r'.rest.length ≤ r.rest.length := by
  have hle := UInt64.le_iff_toNat_le.1 h.le
  rw [length_rest, length_rest, remaining, remaining, h.storage]
  omega

/-- A read whose sum does not wrap. -/
theorem Inside.read_field (h : r.Inside) {size : UInt64}
    (hsize : r.pos.toNat + size.toNat < 2 ^ 64) :
    r.read size = none ∧ bytesField size.toNat r.rest = none ∨
      ∃ b r', r.read size = some (b, r') ∧ bytesField size.toNat r.rest = some (b, r'.rest) ∧
        r.Behind r' := by
  rcases h.read_cases hsize with ⟨hnone, hleft⟩ | ⟨b, r', hsome, hbehind, hle⟩
  · rw [← length_rest] at hleft
    exact Or.inl ⟨hnone, bytesField_eq_none.2 hleft⟩
  · refine Or.inr ⟨b, r', hsome, bytesField_eq_some.2 ⟨?_, ?_, ?_⟩, hbehind⟩
    · rw [length_rest, remaining]
      omega
    all_goals
      unfold read at hsome
      split_ifs at hsome
      cases hsome
    · rfl
    · have hpos : (r.pos + size).toNat = r.pos.toNat + size.toNat := by
        rw [UInt64.toNat_add, Nat.mod_eq_of_lt hsize]
      rw [rest, rest, List.drop_drop, hpos]

/-- `read<T>`, for a type of `size` bytes. -/
def readAs {α : Type} (r : MemoryReader) (size : UInt64) (f : ℕ → α) (value : α) : ReadResult α :=
  (r.read size).elim ⟨false, value, r⟩ fun p => ⟨true, f (ofBytes p.1), p.2⟩

theorem Inside.finds_readAs {α : Type} (h : r.Inside) {size : UInt64} (hsize : size.toNat ≤ 8)
    (f : ℕ → α) (value : α) :
    r.Finds (r.readAs size f value)
      ((wordField size.toNat r.rest).map fun p => (f p.1, p.2)) := by
  unfold readAs wordField
  rcases h.read_field (h.small hsize) with ⟨hnone, hfield⟩ | ⟨b, r', hsome, hfield, hbehind⟩
  · rw [hnone, hfield]
    refine ⟨h.behind_self, fun p hp => ?_, fun _ => rfl⟩
    cases hp
  · rw [hsome, hfield]
    refine ⟨hbehind, fun p hp => ?_, fun hp => by cases hp⟩
    cases hp
    exact ⟨rfl, rfl, rfl⟩

theorem readUint8_eq (value : UInt8) : r.readUint8 value = r.readAs 1 UInt8.ofNat value := by
  unfold readUint8 readAs
  cases r.read 1 <;> rfl

theorem readUint16_eq (value : UInt16) : r.readUint16 value = r.readAs 2 UInt16.ofNat value := by
  unfold readUint16 readAs
  cases r.read 2 <;> rfl

theorem readUint32_eq (value : UInt32) : r.readUint32 value = r.readAs 4 UInt32.ofNat value := by
  unfold readUint32 readAs
  cases r.read 4 <;> rfl

theorem readUint64_eq (value : UInt64) : r.readUint64 value = r.readAs 8 UInt64.ofNat value := by
  unfold readUint64 readAs
  cases r.read 8 <;> rfl

theorem Inside.finds_uint8 (h : r.Inside) (value : UInt8) :
    r.Finds (r.readUint8 value) ((wordField 1 r.rest).map fun p => (UInt8.ofNat p.1, p.2)) := by
  rw [readUint8_eq]
  exact h.finds_readAs (by decide) _ value

theorem Inside.finds_uint16 (h : r.Inside) (value : UInt16) :
    r.Finds (r.readUint16 value) ((wordField 2 r.rest).map fun p => (UInt16.ofNat p.1, p.2)) := by
  rw [readUint16_eq]
  exact h.finds_readAs (by decide) _ value

theorem Inside.finds_uint32 (h : r.Inside) (value : UInt32) :
    r.Finds (r.readUint32 value) ((wordField 4 r.rest).map fun p => (UInt32.ofNat p.1, p.2)) := by
  rw [readUint32_eq]
  exact h.finds_readAs (by decide) _ value

theorem Inside.finds_uint64 (h : r.Inside) (value : UInt64) :
    r.Finds (r.readUint64 value) ((wordField 8 r.rest).map fun p => (UInt64.ofNat p.1, p.2)) := by
  rw [readUint64_eq]
  exact h.finds_readAs (by decide) _ value

/-- What becomes of a value that is read into a local variable first. -/
theorem Finds.widen {α β : Type} {r' : MemoryReader} {res : ReadResult α}
    {field : Option (α × List UInt8)} (h : r'.Finds res field) (hr : r.Behind r') (f : α → β)
    (value : β) :
    r.Finds (if !res.ok then ⟨false, value, res.reader⟩ else ⟨true, f res.value, res.reader⟩)
      (field.map fun p => (f p.1, p.2)) := by
  cases hfield : field with
  | none =>
    rw [h.missing hfield, if_pos (by decide)]
    refine ⟨hr.trans h.behind, fun p hp => ?_, fun _ => rfl⟩
    cases hp
  | some p =>
    obtain ⟨hok, hvalue, hrest⟩ := h.found p hfield
    rw [hok, if_neg (by decide), hvalue]
    refine ⟨hr.trans h.behind, fun q hq => ?_, fun hnone => ?_⟩
    · cases hq
      exact ⟨rfl, rfl, hrest⟩
    · cases hnone

theorem wordField_one (tag : UInt8) (l : List UInt8) :
    ((wordField 1 (tag :: l)).map fun p => (UInt8.ofNat p.1, p.2)) = some (tag, l) := by
  have hfield : wordField 1 (tag :: l) = some (tag.toNat + 256 * 0, l) := by
    rw [wordField, bytesField, if_pos (by rw [List.length_cons]; omega)]
    rfl
  rw [hfield, Option.map_some]
  simp

theorem lt_of_wordField {n : ℕ} {l : List UInt8} {p : ℕ × List UInt8} (h : wordField n l = some p) :
    p.1 < 256 ^ n := by
  obtain ⟨q, hq, rfl⟩ := Option.map_eq_some_iff.1 h
  obtain ⟨hle, htake, -⟩ := bytesField_eq_some.1 hq
  have hlt := ofBytes_lt q.1
  have hlen : q.1.length = n := by rw [htake, List.length_take_of_le hle]
  rwa [hlen] at hlt

/-- The numbers of a varint are widened without loss. -/
theorem map_widen {α : Type} {n : ℕ} {f : ℕ → α} {g : α → UInt64}
    (hfg : ∀ x < 256 ^ n, g (f x) = UInt64.ofNat x) (l : List UInt8) :
    ((wordField n l).map fun p => (f p.1, p.2)).map (fun p => (g p.1, p.2)) =
      (wordField n l).map fun p => (UInt64.ofNat p.1, p.2) := by
  rw [Option.map_map]
  apply Option.map_congr
  intro p hp
  exact Prod.ext (hfg p.1 (lt_of_wordField hp)) rfl

theorem Inside.finds_varint (h : r.Inside) (value : UInt64) :
    r.Finds (r.readVarint value) (varintField r.rest) := by
  have hfirst := h.finds_uint8 0
  cases hl : r.rest with
  | nil =>
    rw [hl] at hfirst
    simp only [MemoryReader.readVarint, hfirst.missing rfl, Bool.not_false, if_true]
    refine ⟨hfirst.behind, fun p hp => ?_, fun _ => rfl⟩
    cases hp
  | cons tag l =>
    rw [hl] at hfirst
    obtain ⟨hok, hvalue, hrest⟩ := hfirst.found _ (wordField_one tag l)
    have hin := hfirst.behind.inside
    have h16 := (hin.finds_uint16 0).widen hfirst.behind UInt16.toUInt64 value
    have h32 := (hin.finds_uint32 0).widen hfirst.behind UInt32.toUInt64 value
    have h64 := hin.finds_uint64 value
    rw [hrest] at h16 h32 h64
    rw [varintField]
    simp only [MemoryReader.readVarint, hok, hvalue, Bool.not_true, Bool.false_eq_true, if_false]
    by_cases htag : tag < 0xFD
    · rw [if_pos htag, if_pos htag]
      refine ⟨hfirst.behind, fun p hp => ?_, fun hp => ?_⟩
      · cases hp
        exact ⟨rfl, rfl, hrest⟩
      · cases hp
    rw [if_neg htag, if_neg htag]
    by_cases hFD : tag = 0xFD
    · rw [if_pos hFD, if_pos hFD, ← map_widen (f := UInt16.ofNat) (g := UInt16.toUInt64)]
      · exact h16
      · intro x hx
        apply UInt64.toNat_inj.1
        rw [UInt16.toNat_toUInt64, UInt16.toNat_ofNat', UInt64.toNat_ofNat']
        omega
    rw [if_neg hFD, if_neg hFD]
    by_cases hFE : tag = 0xFE
    · rw [if_pos hFE, if_pos hFE, ← map_widen (f := UInt32.ofNat) (g := UInt32.toUInt64)]
      · exact h32
      · intro x hx
        apply UInt64.toNat_inj.1
        rw [UInt32.toNat_toUInt64, UInt32.toNat_ofNat', UInt64.toNat_ofNat']
        omega
    rw [if_neg hFE, if_neg hFE]
    exact ⟨hfirst.behind.trans h64.behind, h64.found, h64.missing⟩

/-- The string in front declares a length that makes the sum wrap, for the reader. -/
theorem Inside.overflows_iff (h : r.Inside) :
    Overflows r.storage.length r.rest ↔ (r.readVarint 0).ok = true ∧
      2 ^ 64 ≤ (r.readVarint 0).reader.pos.toNat + (r.readVarint 0).value.toNat := by
  have hfinds := h.finds_varint 0
  have hpos : ∀ q : MemoryReader, r.Behind q → r.storage.length - q.rest.length = q.pos.toNat := by
    intro q hq
    have hle := hq.inside.1
    rw [length_rest, remaining, ← hq.storage]
    omega
  cases hfield : varintField r.rest with
  | none =>
    constructor
    · rintro ⟨p, hp, -⟩
      rw [hfield] at hp
      cases hp
    · rintro ⟨hok, -⟩
      rw [hfinds.missing hfield] at hok
      cases hok
  | some p =>
    obtain ⟨hok, hvalue, hrest⟩ := hfinds.found p hfield
    rw [Overflows, hfield]
    rw [← hpos _ hfinds.behind, hvalue, hrest]
    simp [hok]

/-- **Strings.** A string whose length overflows is read with an exception. -/
theorem Inside.stringCall_of_overflows (h : r.Inside) (hover : Overflows r.storage.length r.rest) :
    r.stringCall = none := by
  obtain ⟨hok, hwrap⟩ := h.overflows_iff.1 hover
  have hlength := h.readVarint 0
  obtain ⟨hsome, -, hlarge⟩ := hlength.inside.read_wraps (Nat.not_lt.2 hwrap)
  rcases isRead_string hok [] with ⟨hnone, -, -⟩ | ⟨-, -, htrue⟩
  · rw [hnone] at hsome
    cases hsome
  · exact if_pos ⟨htrue, hlarge⟩

/-- Any other string is there or not, and its length is read whenever it is there. -/
theorem Inside.finds_string (h : r.Inside) (hover : ¬Overflows r.storage.length r.rest) :
    r.Finds (r.readString []) (stringField r.rest) ∧
      r.stringCall = some ((r.readString []).ok, (r.readString []).reader) ∧
      ∀ p, varintField r.rest = some p → stringField r.rest = none →
        (r.readString []).reader.rest = p.2 := by
  have hlength := h.finds_varint 0
  cases hfield : varintField r.rest with
  | none =>
    have hstring : r.readString [] = ⟨false, [], (r.readVarint 0).reader⟩ := by
      simp only [MemoryReader.readString, hlength.missing hfield, Bool.not_false, if_true]
    rw [stringField, hfield, stringCall, hstring]
    refine ⟨⟨hlength.behind, fun p hp => ?_, fun _ => rfl⟩, rfl, fun p hp => ?_⟩
    all_goals cases hp
  | some p =>
    obtain ⟨hok, hvalue, hrest⟩ := hlength.found p hfield
    have hin := hlength.behind.inside
    have hsize : (r.readVarint 0).reader.pos.toNat + (r.readVarint 0).value.toNat < 2 ^ 64 :=
      Nat.not_le.1 fun hle => hover (h.overflows_iff.2 ⟨hok, hle⟩)
    have hread := hin.read_field hsize
    rw [hrest, hvalue] at hread
    rw [stringField, hfield, Option.bind_some]
    rcases hread with ⟨hnone, hbytes⟩ | ⟨b, r', hsome, hbytes, hbehind⟩
    · have hstring : r.readString [] = ⟨false, [], (r.readVarint 0).reader⟩ := by
        simp only [MemoryReader.readString, hok, hvalue, hnone, Bool.not_true, Bool.false_eq_true,
          if_false]
      rw [hbytes, stringCall, hstring]
      refine ⟨⟨hlength.behind, fun q hq => ?_, fun _ => rfl⟩, rfl, fun q hq _ => ?_⟩
      · cases hq
      · cases hq
        exact hrest
    · have hempty : (if p.1 > 0 then b else []) = b := by
        split_ifs with hpos
        · rfl
        · have hzero : p.1.toNat = 0 := by
            rw [gt_iff_lt, UInt64.lt_iff_toNat_lt] at hpos
            exact Nat.eq_zero_of_not_pos hpos
          rw [hzero] at hbytes
          exact (bytesField_eq_some.1 hbytes).2.1.symm
      have hstring : r.readString [] = ⟨true, b, r'⟩ := by
        simp only [MemoryReader.readString, hok, hvalue, hsome, Bool.not_true, Bool.false_eq_true,
          if_false, hempty]
      have hle := (bytesField_eq_some.1 hbytes).1
      rw [hbytes, stringCall, hstring, hvalue]
      refine ⟨⟨hlength.behind.trans hbehind, fun q hq => ?_, fun hq => ?_⟩, if_neg ?_,
        fun q _ hq => ?_⟩
      · cases hq
        exact ⟨rfl, rfl, rfl⟩
      · cases hq
      · -- a string that is there is not larger than its vector
        rintro ⟨-, hlarge⟩
        have := hin.2
        rw [← hrest, length_rest, remaining] at hle
        unfold maxStringSize at hlarge
        omega
      · cases hq

/-- Two reads, one after the other whatever the first one returns. -/
theorem Finds.pair {α β γ : Type} {a : ReadResult α} {b : ReadResult β}
    {fieldA : Option (α × List UInt8)} (ha : r.Finds a fieldA)
    (fieldB : List UInt8 → Option (β × List UInt8))
    (hb : a.reader.Finds b (fieldB a.reader.rest)) (f : α → β → γ) :
    r.Finds ⟨a.ok && b.ok, f a.value b.value, b.reader⟩
      (fieldA.bind fun x => (fieldB x.2).map fun y => (f x.1 y.1, y.2)) := by
  refine ⟨ha.behind.trans hb.behind, fun p hp => ?_, fun hnone => ?_⟩
  · obtain ⟨x, hx, hmap⟩ := Option.bind_eq_some_iff.1 hp
    obtain ⟨y, hy, rfl⟩ := Option.map_eq_some_iff.1 hmap
    obtain ⟨hokA, hvalueA, hrestA⟩ := ha.found x hx
    rw [hrestA] at hb
    obtain ⟨hokB, hvalueB, hrestB⟩ := hb.found y hy
    refine ⟨?_, ?_, hrestB⟩
    · rw [hokA, hokB, Bool.and_self]
    · simp only [hvalueA, hvalueB]
  · cases hx : fieldA with
    | none => simp only [ha.missing hx, Bool.false_and]
    | some x =>
      rw [hx, Option.bind_some, Option.map_eq_none_iff] at hnone
      rw [(ha.found x hx).2.2] at hb
      simp only [hb.missing hnone, Bool.and_false]

/-! ### Numbers one after the other -/

/-- A read goes behind `n` bytes, or fails because there are fewer. -/
structure Skips {α : Type} (r : MemoryReader) (res : ReadResult α) (n : ℕ) : Prop where
  behind : r.Behind res.reader
  skipped : n ≤ r.rest.length → res.ok = true ∧ res.reader.rest = r.rest.drop n
  missing : r.rest.length < n → res.ok = false

theorem Finds.skips {α : Type} {res : ReadResult α} {n : ℕ} {f : ℕ → α}
    (h : r.Finds res ((wordField n r.rest).map fun p => (f p.1, p.2))) : r.Skips res n := by
  refine ⟨h.behind, fun hle => ?_, fun hlt => ?_⟩
  · have hfield : bytesField n r.rest = some (r.rest.take n, r.rest.drop n) := if_pos hle
    rw [wordField, hfield] at h
    obtain ⟨hok, -, hrest⟩ := h.found _ rfl
    exact ⟨hok, hrest⟩
  · rw [wordField, bytesField_eq_none.2 hlt] at h
    exact h.missing rfl

theorem inside_start {payload : List UInt8} (h : payload.length < 2 ^ 63) :
    Inside { storage := payload } :=
  ⟨Nat.zero_le _, h⟩

end Finds

end MemoryReader

end Owlcat
