import Mathlib.Tactic

/-!
# Little-endian bytes

`toBytes n v` are the `n` low bytes of `v`, least significant first, and `ofBytes` puts a list of
bytes together again.
-/

namespace LittleEndian

/-- The `n` low bytes of `v`, least significant first. -/
def toBytes : ℕ → ℕ → List UInt8
  | 0, _ => []
  | n + 1, v => UInt8.ofNat v :: toBytes n (v / 256)

/-- The number a list of bytes stands for. -/
def ofBytes : List UInt8 → ℕ
  | [] => 0
  | b :: l => b.toNat + 256 * ofBytes l

@[simp] theorem length_toBytes (n v : ℕ) : (toBytes n v).length = n := by
  induction n generalizing v with
  | zero => rfl
  | succ n ih => rw [toBytes, List.length_cons, ih]

theorem ofBytes_toBytes {n v : ℕ} (h : v < 256 ^ n) : ofBytes (toBytes n v) = v := by
  induction n generalizing v with
  | zero =>
    have hv : v = 0 := by simpa using h
    rw [hv]
    rfl
  | succ n ih =>
    have hdiv : v / 256 < 256 ^ n := by
      rw [Nat.div_lt_iff_lt_mul (by norm_num)]
      rwa [pow_succ] at h
    rw [toBytes, ofBytes, ih hdiv, UInt8.toNat_ofNat']
    omega

theorem ofBytes_lt (l : List UInt8) : ofBytes l < 256 ^ l.length := by
  induction l with
  | nil => exact Nat.one_pos
  | cons b l ih =>
    have hb := b.toNat_lt
    rw [ofBytes, List.length_cons, pow_succ]
    omega

end LittleEndian
