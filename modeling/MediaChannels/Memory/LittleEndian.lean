/-!
# Little-endian words

A word of `width` bytes is stored with its least significant byte first.

* `toNat_toBytes`: what is written reads back, modulo the range of the width.
* `toBytes_toNat`: the bytes read are the bytes written back.
-/

namespace MediaChannels.LittleEndian

/-- The `width` low bytes of a number, least significant first. -/
def toBytes : Nat → Nat → List UInt8
  | 0, _ => []
  | width + 1, n => UInt8.ofNat n :: toBytes width (n / 256)

/-- The number that bytes denote, least significant first. -/
def toNat : List UInt8 → Nat
  | [] => 0
  | b :: r => b.toNat + 256 * toNat r

@[simp] theorem length_toBytes (width n : Nat) : (toBytes width n).length = width := by
  induction width generalizing n with
  | zero => rfl
  | succ w ih => simp [toBytes, ih]

/-- One more byte, eight more bits. -/
theorem shiftLeft_succ (width : Nat) : 1 <<< (8 * (width + 1)) = 256 * 1 <<< (8 * width) := by
  rw [Nat.one_shiftLeft, Nat.one_shiftLeft, Nat.mul_succ, Nat.pow_add, Nat.mul_comm]

theorem toNat_lt (bytes : List UInt8) : toNat bytes < 1 <<< (8 * bytes.length) := by
  induction bytes with
  | nil => exact Nat.one_pos
  | cons b r ih =>
    have hb := b.toNat_lt
    rw [toNat, List.length_cons, shiftLeft_succ]
    omega

@[simp] theorem toNat_toBytes (width n : Nat) : toNat (toBytes width n) = n % 1 <<< (8 * width) := by
  induction width generalizing n with
  | zero => simp [toBytes, toNat, Nat.mod_one]
  | succ w ih =>
    rw [toBytes, toNat, ih, shiftLeft_succ, Nat.mod_mul, UInt8.toNat_ofNat']

@[simp] theorem toBytes_toNat (bytes : List UInt8) : toBytes bytes.length (toNat bytes) = bytes := by
  induction bytes with
  | nil => rfl
  | cons b r ih =>
    have hb := b.toNat_lt
    have h : (b.toNat + 256 * toNat r) / 256 = toNat r := by omega
    simp only [toNat, List.length_cons, toBytes, h, ih, List.cons.injEq, and_true]
    apply UInt8.toNat.inj
    rw [UInt8.toNat_ofNat']
    omega

end MediaChannels.LittleEndian
