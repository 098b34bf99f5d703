import MediaChannels.Memory.Basic

/-!
# Programs that access memory

An operation on shared memory is a program whose nodes are its single loads and stores, in program order, and the
remainders it takes by a divisor that it has read. Running it threads a memory through these nodes. Because the nodes
are there to be seen, one definition of an operation also says what it leaves behind when its caller dies between two
stores, and which bytes it touches.

* `run_bind`: running a sequence runs its parts one after the other.
* `crash_of_le`, `crash_zero`: after all of its stores a program has left what running it leaves, after none nothing.
* `Safe`: every load and store lies inside the region and every divisor differs from zero.
-/

namespace MediaChannels

/-- A program that loads and stores bytes and ends with a value. A `store` is one indivisible write. -/
inductive Access (α : Type) where
  | done (value : α)
  | load (offset count : Nat) (next : List UInt8 → Access α)
  | store (offset : Nat) (bytes : List UInt8) (next : Unit → Access α)
  | remainder (dividend divisor : UInt64) (next : UInt64 → Access α)

namespace Access

variable {α β : Type}

/-- The program that goes on with `f` on the value of `p`. -/
def andThen (p : Access α) (f : α → Access β) : Access β :=
  match p with
  | done a => f a
  | load offset count next => load offset count fun bytes => (next bytes).andThen f
  | store offset bytes next => store offset bytes fun _ => (next ()).andThen f
  | remainder a b next => remainder a b fun r => (next r).andThen f

/-- Programs run one after the other. -/
instance : Monad Access where
  pure := done
  bind := andThen

/-- The value of a program and the memory that it leaves. -/
def run : Access α → Memory → α × Memory
  | done a, m => (a, m)
  | load offset count next, m => (next (m.read offset count)).run m
  | store offset bytes next, m => (next ()).run (m.write offset bytes)
  | remainder a b next, m => (next (a % b)).run m

/-- The memory that a program leaves when it stops after its first `n` stores. -/
def crash : Nat → Access α → Memory → Memory
  | _, done _, m => m
  | n, load offset count next, m => crash n (next (m.read offset count)) m
  | 0, store _ _ _, m => m
  | n + 1, store offset bytes next, m => crash n (next ()) (m.write offset bytes)
  | n, remainder a b next, m => crash n (next (a % b)) m

/-- The number of stores of a run. -/
def storeCount : Access α → Memory → Nat
  | done _, _ => 0
  | load offset count next, m => (next (m.read offset count)).storeCount m
  | store offset bytes next, m => (next ()).storeCount (m.write offset bytes) + 1
  | remainder a b next, m => (next (a % b)).storeCount m

/-- Every byte that a run touches lies below `size`, and no remainder is taken by zero. -/
def Safe (size : Nat) : Access α → Memory → Prop
  | done _, _ => True
  | load offset count next, m => offset + count ≤ size ∧ (next (m.read offset count)).Safe size m
  | store offset bytes next, m => offset + bytes.length ≤ size ∧ (next ()).Safe size (m.write offset bytes)
  | remainder a b next, m => b ≠ 0 ∧ (next (a % b)).Safe size m

@[simp] theorem run_pure (a : α) (m : Memory) : (pure a : Access α).run m = (a, m) := rfl

@[simp] theorem run_bind (p : Access α) (f : α → Access β) (m : Memory) :
    (p >>= f).run m = (f (p.run m).1).run (p.run m).2 := by
  show (p.andThen f).run m = _
  induction p generalizing m with
  | done a => rfl
  | load offset count next ih => exact ih _ m
  | store offset bytes next ih => exact ih () _
  | remainder a b next ih => exact ih _ m

theorem crash_zero (p : Access α) (m : Memory) : p.crash 0 m = m := by
  induction p with
  | done => rfl
  | load offset count next ih => exact ih _
  | store => rfl
  | remainder a b next ih => exact ih _

theorem crash_of_le (p : Access α) (m : Memory) {n : Nat} (h : p.storeCount m ≤ n) : p.crash n m = (p.run m).2 := by
  induction p generalizing m n with
  | done => rfl
  | load offset count next ih => exact ih _ m h
  | store offset bytes next ih =>
    cases n with
    | zero => exact absurd h (by simp [storeCount])
    | succ n => exact ih () _ (Nat.le_of_succ_le_succ h)
  | remainder a b next ih => exact ih _ m h

/-! ## Single accesses -/

/-- The `count` bytes from `offset` on. -/
def bytes (offset count : Nat) : Access (List UInt8) := load offset count done

/-- Writes all bytes at once. -/
def setBytes (offset : Nat) (bs : List UInt8) : Access Unit := store offset bs done

/-- Copies bytes one after the other, so that a copy can end after any of them. -/
def copy (offset : Nat) : List UInt8 → Access Unit
  | [] => done ()
  | b :: r => store offset [b] fun _ => copy (offset + 1) r

/-- The 32-bit word at an offset. -/
def word32 (offset : Nat) : Access UInt32 :=
  load offset 4 fun bs => done (UInt32.ofNat (LittleEndian.toNat bs))

/-- The 64-bit word at an offset. -/
def word64 (offset : Nat) : Access UInt64 :=
  load offset 8 fun bs => done (UInt64.ofNat (LittleEndian.toNat bs))

/-- Stores a 32-bit word. -/
def setWord32 (offset : Nat) (w : UInt32) : Access Unit := setBytes offset (Memory.bytes32 w)

/-- Stores a 64-bit word. -/
def setWord64 (offset : Nat) (w : UInt64) : Access Unit := setBytes offset (Memory.bytes64 w)

/-- The remainder of a division whose divisor came out of memory. -/
def rem (a b : UInt64) : Access UInt64 := remainder a b done

@[simp] theorem run_bytes (m : Memory) (offset count : Nat) :
    (bytes offset count).run m = (m.read offset count, m) := rfl

@[simp] theorem run_setBytes (m : Memory) (offset : Nat) (bs : List UInt8) :
    (setBytes offset bs).run m = ((), m.write offset bs) := rfl

@[simp] theorem run_word32 (m : Memory) (offset : Nat) : (word32 offset).run m = (m.word32 offset, m) := by
  rw [Memory.word32]
  rfl

@[simp] theorem run_word64 (m : Memory) (offset : Nat) : (word64 offset).run m = (m.word64 offset, m) := by
  rw [Memory.word64]
  rfl

@[simp] theorem run_setWord32 (m : Memory) (offset : Nat) (w : UInt32) :
    (setWord32 offset w).run m = ((), m.write offset (Memory.bytes32 w)) := rfl

@[simp] theorem run_setWord64 (m : Memory) (offset : Nat) (w : UInt64) :
    (setWord64 offset w).run m = ((), m.write offset (Memory.bytes64 w)) := rfl

@[simp] theorem run_copy (m : Memory) (offset : Nat) (bs : List UInt8) :
    (copy offset bs).run m = ((), m.write offset bs) := by
  induction bs generalizing m offset with
  | nil => rw [Memory.write_nil]; rfl
  | cons b r ih => rw [Memory.write_cons]; exact ih _ _

@[simp] theorem run_rem (m : Memory) (a b : UInt64) : (rem a b).run m = (a % b, m) := rfl

end Access

end MediaChannels
