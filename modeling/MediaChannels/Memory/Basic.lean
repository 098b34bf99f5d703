import Std.Data.TreeMap.Lemmas
import MediaChannels.Memory.LittleEndian

/-!
# Byte memory

A memory gives a byte to every offset, and all but finitely many of them are zero: the map holds the others. How much of
it belongs to a mapped region is said by the region and not here.

* `byte_zeroed`, `byte_setByte`: the view of a memory through `byte`.
* `byte_write`: a write replaces the bytes of its range and no other.
* `read_write`: what is written reads back.
* `read_write_of_disjoint`: a read outside the range of a write is not changed by it.
* `word64_write_bytes64`: the same for words, which are little-endian.
-/

namespace MediaChannels

/-- The bytes that differ from zero, by offset. -/
structure Memory where
  cells : Std.TreeMap Nat UInt8

namespace Memory

/-- The memory that is zero everywhere. -/
def zeroed : Memory := ⟨{}⟩

/-- Memory is zero unless something else is known. -/
instance : Inhabited Memory := ⟨zeroed⟩

/-- The byte at an offset. -/
def byte (m : Memory) (offset : Nat) : UInt8 := m.cells.getD offset 0

/-- The memory with one byte replaced. -/
def setByte (m : Memory) (offset : Nat) (b : UInt8) : Memory :=
  ⟨if b = 0 then m.cells.erase offset else m.cells.insert offset b⟩

/-- The `count` bytes from `offset` on. -/
def read (m : Memory) (offset count : Nat) : List UInt8 := (List.range' offset count).map m.byte

/-- The memory with the bytes from `offset` on replaced. -/
def write (m : Memory) (offset : Nat) : List UInt8 → Memory
  | [] => m
  | b :: r => (m.setByte offset b).write (offset + 1) r

@[simp] theorem byte_zeroed (i : Nat) : zeroed.byte i = 0 := by simp [zeroed, byte]

theorem byte_setByte (m : Memory) (i j : Nat) (b : UInt8) :
    (m.setByte i b).byte j = if i = j then b else m.byte j := by
  by_cases hb : b = 0 <;> by_cases h : i = j <;> simp [setByte, byte, hb, h, Std.TreeMap.getD_erase,
    Std.TreeMap.getD_insert]

@[simp] theorem length_read (m : Memory) (offset count : Nat) : (m.read offset count).length = count := by
  simp [read]

theorem getElem?_read (m : Memory) (offset count i : Nat) :
    (m.read offset count)[i]? = if i < count then some (m.byte (offset + i)) else none := by
  by_cases h : i < count <;> simp [read, h]

theorem byte_write (m : Memory) (offset : Nat) (bytes : List UInt8) (i : Nat) :
    (m.write offset bytes).byte i =
      if offset ≤ i then (bytes[i - offset]?).getD (m.byte i) else m.byte i := by
  induction bytes generalizing m offset with
  | nil => simp [write]
  | cons b r ih =>
    rw [write, ih]
    rcases Nat.lt_trichotomy i offset with h | h | h
    · rw [if_neg (by omega), if_neg (by omega), byte_setByte, if_neg (by omega)]
    · subst h
      rw [if_neg (by omega), if_pos (Nat.le_refl i), byte_setByte, if_pos rfl, Nat.sub_self]
      rfl
    · obtain ⟨k, rfl⟩ : ∃ k, i = offset + 1 + k := ⟨i - (offset + 1), by omega⟩
      rw [if_pos (by omega), if_pos (by omega), byte_setByte, if_neg (by omega),
        show offset + 1 + k - (offset + 1) = k by omega, show offset + 1 + k - offset = k + 1 by omega,
        List.getElem?_cons_succ]

theorem byte_write_of_outside (m : Memory) {offset : Nat} {bytes : List UInt8} {i : Nat}
    (h : i < offset ∨ offset + bytes.length ≤ i) : (m.write offset bytes).byte i = m.byte i := by
  rw [byte_write]
  split
  · rw [List.getElem?_eq_none (by omega), Option.getD_none]
  · rfl

@[simp] theorem write_nil (m : Memory) (offset : Nat) : m.write offset [] = m := rfl

theorem write_cons (m : Memory) (offset : Nat) (b : UInt8) (r : List UInt8) :
    m.write offset (b :: r) = (m.write offset [b]).write (offset + 1) r := rfl

theorem write_append (m : Memory) (offset : Nat) (xs ys : List UInt8) :
    m.write offset (xs ++ ys) = (m.write offset xs).write (offset + xs.length) ys := by
  induction xs generalizing m offset with
  | nil => rfl
  | cons x xs ih =>
    simp only [List.cons_append, write, ih, List.length_cons]
    rw [Nat.add_assoc, Nat.add_comm 1]

/-- Two reads agree when the bytes of their ranges do. -/
theorem read_congr {m m' : Memory} {offset count : Nat}
    (h : ∀ i, offset ≤ i → i < offset + count → m.byte i = m'.byte i) : m.read offset count = m'.read offset count := by
  apply List.ext_getElem?
  intro i
  rw [getElem?_read, getElem?_read]
  split
  · rw [h (offset + i) (by omega) (by omega)]
  · rfl

/-- What is written reads back. -/
@[simp] theorem read_write (m : Memory) (offset : Nat) (bytes : List UInt8) :
    (m.write offset bytes).read offset bytes.length = bytes := by
  apply List.ext_getElem?
  intro i
  rw [getElem?_read]
  split
  · next h => simp [byte_write, List.getElem?_eq_getElem h]
  · next h => rw [List.getElem?_eq_none (by omega)]

/-- A read outside the range of a write is not changed by it. -/
theorem read_write_of_disjoint (m : Memory) {offset count start : Nat} {bytes : List UInt8}
    (h : offset + count ≤ start ∨ start + bytes.length ≤ offset) :
    (m.write start bytes).read offset count = m.read offset count :=
  read_congr fun i hl hu => byte_write_of_outside m (by omega)

/-! ## Words -/

/-- The little-endian 32-bit word at an offset. -/
def word32 (m : Memory) (offset : Nat) : UInt32 := UInt32.ofNat (LittleEndian.toNat (m.read offset 4))

/-- The little-endian 64-bit word at an offset. -/
def word64 (m : Memory) (offset : Nat) : UInt64 := UInt64.ofNat (LittleEndian.toNat (m.read offset 8))

/-- The bytes of a 32-bit word. -/
def bytes32 (w : UInt32) : List UInt8 := LittleEndian.toBytes 4 w.toNat

/-- The bytes of a 64-bit word. -/
def bytes64 (w : UInt64) : List UInt8 := LittleEndian.toBytes 8 w.toNat

@[simp] theorem length_bytes32 (w : UInt32) : (bytes32 w).length = 4 := LittleEndian.length_toBytes 4 _

@[simp] theorem length_bytes64 (w : UInt64) : (bytes64 w).length = 8 := LittleEndian.length_toBytes 8 _

@[simp] theorem word32_write_bytes32 (m : Memory) (offset : Nat) (w : UInt32) :
    (m.write offset (bytes32 w)).word32 offset = w := by
  have h := read_write m offset (bytes32 w)
  rw [length_bytes32] at h
  have hw := w.toNat_lt
  rw [word32, h, bytes32, LittleEndian.toNat_toBytes, Nat.mod_eq_of_lt (by omega), UInt32.ofNat_toNat]

@[simp] theorem word64_write_bytes64 (m : Memory) (offset : Nat) (w : UInt64) :
    (m.write offset (bytes64 w)).word64 offset = w := by
  have h := read_write m offset (bytes64 w)
  rw [length_bytes64] at h
  have hw := w.toNat_lt
  rw [word64, h, bytes64, LittleEndian.toNat_toBytes, Nat.mod_eq_of_lt (by omega), UInt64.ofNat_toNat]

theorem word32_write_of_disjoint (m : Memory) {offset start : Nat} {bytes : List UInt8}
    (h : offset + 4 ≤ start ∨ start + bytes.length ≤ offset) :
    (m.write start bytes).word32 offset = m.word32 offset := by
  rw [word32, word32, read_write_of_disjoint m h]

theorem word64_write_of_disjoint (m : Memory) {offset start : Nat} {bytes : List UInt8}
    (h : offset + 8 ≤ start ∨ start + bytes.length ≤ offset) :
    (m.write start bytes).word64 offset = m.word64 offset := by
  rw [word64, word64, read_write_of_disjoint m h]

-- Two reads at different offsets are told apart by the lemmas above and not by computing bytes.
attribute [irreducible] read write word32 word64

end Memory

end MediaChannels
