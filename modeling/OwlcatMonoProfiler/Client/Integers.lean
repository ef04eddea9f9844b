import OwlcatMonoProfiler.Client.Recording

/-!
# Integers in the database

A value goes through one of two `bind` functions of SQLite into a column, and comes out of the
column through one of four getters of the cursor.

* `DbValue.Fits`: the getter is for the signedness of the value, and not narrower;
* `ReadsBack`: the getter returns the value;
* `Mangled`: a large unsigned value is bound as a narrow signed one and read as a wide unsigned one;
* `readsBack_iff`: nothing else goes wrong.
-/

namespace Owlcat

/-- The functions of `cursor` that return an integer. -/
inductive Getter
  | int | int64 | uint | uint64

namespace DbValue

/-- The type is signed. -/
def signed : DbValue → Bool
  | int32 _ => true
  | int64 _ => true
  | uint32 _ => false
  | uint64 _ => false

/-- The width of the type. -/
def width : DbValue → ℕ
  | int32 _ => 32
  | int64 _ => 64
  | uint32 _ => 32
  | uint64 _ => 64

/-- The number, as a value of its type. -/
def number : DbValue → ℤ
  | int32 value => value.toInt
  | int64 value => value.toInt
  | uint32 value => value.toNat
  | uint64 value => value.toNat

end DbValue

namespace Getter

/-- What the getter returns for a column. -/
def get (column : Option Int64) : Getter → DbValue
  | int => .int32 (getInt column)
  | int64 => .int64 (getInt64 column)
  | uint => .uint32 (getUint column)
  | uint64 => .uint64 (getUint64 column)

end Getter

/-- The getter returns values of the same signedness, and of the same or a larger width. -/
def DbValue.Fits (v : DbValue) (g : Getter) : Prop :=
  (g.get none).signed = v.signed ∧ v.width ≤ (g.get none).width

/-- The number that was bound is the number that is read. -/
def ReadsBack (v : DbValue) (g : Getter) : Prop := (g.get (some v.bind)).number = v.number

/-- An unsigned value in the upper half of its range, read with a larger width. -/
def Mangled (v : DbValue) (g : Getter) : Prop :=
  v.signed = false ∧ v.width < (g.get none).width ∧ 2 ^ (v.width - 1) ≤ v.number

/-! ### The pairs of a type and a getter -/

theorem readsBack_int32_int (value : Int32) : ReadsBack (.int32 value) .int :=
  congrArg Int32.toInt value.toInt32_toInt64

theorem readsBack_int32_int64 (value : Int32) : ReadsBack (.int32 value) .int64 :=
  value.toInt_toInt64

/-- The sign extension of `sqlite3_bind_int` is cut off again. -/
theorem readsBack_uint32_uint (value : UInt32) : ReadsBack (.uint32 value) .uint := by
  have hbits : (value.toBitVec.signExtend 64).setWidth 32 = value.toBitVec := by
    ext i hi
    rw [BitVec.getElem_setWidth, BitVec.getLsbD_signExtend]
    simp [hi, Nat.lt_trans hi]
  exact congrArg (fun x : BitVec 32 => (x.toNat : ℤ)) hbits

theorem readsBack_uint64_uint64 (value : UInt64) : ReadsBack (.uint64 value) .uint64 :=
  congrArg (fun x : UInt64 => (x.toNat : ℤ)) (getUint64_bind value)

/-- The sign extension of `sqlite3_bind_int` stays in the upper half of the result. -/
theorem readsBack_uint32_uint64 (value : UInt32) :
    ReadsBack (.uint32 value) .uint64 ↔ value < 0x80000000 := by
  rw [← getUint64_bind_uint32, ← UInt64.toNat_inj, UInt32.toNat_toUInt64]
  exact Int.ofNat_inj

theorem mangled_uint32 {value : UInt32} : Mangled (.uint32 value) .uint64 ↔ 0x80000000 ≤ value := by
  rw [UInt32.le_iff_toNat_le, ← Int.ofNat_le]
  constructor
  · rintro ⟨-, -, hupper⟩
    exact hupper
  · intro hupper
    exact ⟨rfl, show 32 < 64 by decide, hupper⟩

theorem readsBack_iff_of_fits {v : DbValue} {g : Getter} (h : v.Fits g) :
    ReadsBack v g ↔ ¬ Mangled v g := by
  obtain ⟨hsigned, hwidth⟩ := h
  cases v with
  | int32 value =>
    refine iff_of_true ?_ fun hm => Bool.noConfusion hm.1
    cases g with
    | int => exact readsBack_int32_int value
    | int64 => exact readsBack_int32_int64 value
    | uint => exact Bool.noConfusion hsigned
    | uint64 => exact Bool.noConfusion hsigned
  | int64 value =>
    refine iff_of_true ?_ fun hm => Bool.noConfusion hm.1
    cases g with
    | int => exact absurd hwidth (show ¬ 64 ≤ 32 by decide)
    | int64 => rfl
    | uint => exact Bool.noConfusion hsigned
    | uint64 => exact Bool.noConfusion hsigned
  | uint32 value =>
    cases g with
    | int => exact Bool.noConfusion hsigned
    | int64 => exact Bool.noConfusion hsigned
    | uint => exact iff_of_true (readsBack_uint32_uint value) fun hm => lt_irrefl 32 hm.2.1
    | uint64 => rw [readsBack_uint32_uint64, mangled_uint32, UInt32.not_le]
  | uint64 value =>
    cases g with
    | int => exact Bool.noConfusion hsigned
    | int64 => exact Bool.noConfusion hsigned
    | uint => exact absurd hwidth (show ¬ 64 ≤ 32 by decide)
    | uint64 => exact iff_of_true (readsBack_uint64_uint64 value) fun hm => lt_irrefl 64 hm.2.1

/-- A value is read back by a getter of its signedness that is not narrower, unless it is an
unsigned value in the upper half of its range and the getter is wider.  So the size of a free is
read back exactly when it is positive as an `int`, and the size of an allocation always. -/
theorem readsBack_iff {v : DbValue} {g : Getter} (h : v.Fits g) (db : Database)
    (frame addr typeId callstackId : UInt64) (freeSize : UInt32) (allocSize : UInt64) :
    (ReadsBack v g ↔ ¬ Mangled v g) ∧
      (∃ row, db.insertFreeEvent frame addr freeSize =
          some { db with profilerEvents := db.profilerEvents ++ [row] } ∧
        (getUint64 (some row.size) = freeSize.toUInt64 ↔ freeSize < 0x80000000)) ∧
      ∃ row, db.insertAllocEvent frame addr allocSize typeId callstackId =
          some { db with profilerEvents := db.profilerEvents ++ [row] } ∧
        getUint64 (some row.size) = allocSize :=
  ⟨readsBack_iff_of_fits h, ⟨_, rfl, getUint64_bind_uint32 freeSize⟩,
    ⟨_, rfl, getUint64_bind allocSize⟩⟩

/-- The type of the size of a free fits its getter. -/
theorem readsBack_small : ReadsBack (.uint32 24) .uint64 := by
  have hfits : (DbValue.uint32 24).Fits .uint64 := ⟨rfl, show 32 ≤ 64 by decide⟩
  refine (readsBack_iff hfits {} 1 1 1 1 24 24).1.2 ?_
  rw [mangled_uint32]
  decide

/-- The size of a free of 2 GiB goes into the database as a negative number. -/
theorem not_readsBack_free :
    (DbValue.uint32 0x80000000).Fits .uint64 ∧ ¬ ReadsBack (.uint32 0x80000000) .uint64 ∧
      ((({} : Database).insertFreeEvent 1 1 0x80000000).map fun db =>
          db.profilerEvents.map fun row => getUint64 (some row.size)) =
        some [0xFFFFFFFF80000000] := by
  refine ⟨⟨rfl, show 32 ≤ 64 by decide⟩, ?_, by decide⟩
  rw [readsBack_uint32_uint64]
  decide

end Owlcat
