import MediaChannels.Memory.Access
import MediaChannels.Memory.CacheLine

/-!
# Sequence locks

A sequence lock guards one frame in shared memory for a writer that never waits. The writer makes the sequence number
odd, writes, and makes it even again; a reader keeps what it copied only if it saw one even number before and after.

The lock takes two cache lines: the sequence number at offset 0 and the size of the data region at offset 64. The data
region follows at offset 128 with the header of the frame (index, length, flags), and the payload is at offset 144.

* `run_tryRead_of_odd`: nothing is read while a write is under way.
* `run_tryRead_of_even`: otherwise the frame in memory is read, cut to the capacity.
-/

namespace MediaChannels

/-- What a lock guards: a payload, its place in the stream of its writer, and flags of the writer's own. -/
structure Frame where
  index : UInt64
  flags : UInt32
  data : List UInt8
  deriving DecidableEq, Repr

/-- A sequence lock, by the offset at which it starts. -/
structure Seqlock where
  base : Nat

namespace Seqlock

/-- Bytes in front of the data region. -/
def headerSize : Nat := 2 * cacheLine

/-- Bytes of the data region in front of the payload. -/
def frameHeaderSize : Nat := 16

/-- Bytes that a lock takes whose payload has up to `capacity` bytes. -/
def size (capacity : Nat) : Nat := alignUp (headerSize + frameHeaderSize + capacity)

variable (lock : Seqlock)

/-- Offset of the size of the data region. -/
def dataSizeAt : Nat := lock.base + cacheLine

/-- Offset of the frame header. -/
def frameAt : Nat := lock.base + headerSize

/-- Offset of the payload. -/
def payloadAt : Nat := lock.frameAt + frameHeaderSize

/-- Sets up a lock for payloads of up to `capacity` bytes. -/
def init (capacity : Nat) : Access Unit := do
  Access.setWord64 lock.base 0
  Access.setWord64 lock.dataSizeAt (UInt64.ofNat (frameHeaderSize + capacity))

/-- The sequence number: odd while a write is under way. -/
def sequence : Access UInt64 := Access.word64 lock.base

/-- The longest payload that the lock can hold. -/
def capacity : Access Nat := do
  let dataSize ← Access.word64 lock.dataSizeAt
  return dataSize.toNat - frameHeaderSize

/-- The bytes of a frame header. -/
def frameHeader (index : UInt64) (length : Nat) (flags : UInt32) : List UInt8 :=
  Memory.bytes64 index ++ LittleEndian.toBytes 4 length ++ Memory.bytes32 flags

/-- Writes a frame, with its payload cut to the capacity, and gives the number of payload bytes written. -/
def write (frame : Frame) : Access Nat := do
  let capacity ← lock.capacity
  let data := frame.data.take capacity
  let sequence ← lock.sequence
  Access.setWord64 lock.base (sequence + 1)
  Access.copy lock.frameAt (frameHeader frame.index data.length frame.flags)
  Access.copy lock.payloadAt data
  Access.setWord64 lock.base (sequence + 2)
  return data.length

/-- The frame in memory, whatever the sequence number. -/
def peek : Access Frame := do
  let index ← Access.word64 lock.frameAt
  let length ← Access.word32 (lock.frameAt + 8)
  let flags ← Access.word32 (lock.frameAt + 12)
  let capacity ← lock.capacity
  let data ← Access.bytes lock.payloadAt (min length.toNat capacity)
  return { index, flags, data }

/-- Reads the frame once; `none` if a write was under way or happened meanwhile. -/
def tryRead : Access (Option Frame) := do
  let before ← lock.sequence
  if before % 2 = 1 then return none
  let frame ← lock.peek
  let after ← lock.sequence
  return if before = after then some frame else none

@[simp] theorem run_sequence (m : Memory) : lock.sequence.run m = (m.word64 lock.base, m) :=
  Access.run_word64 _ _

@[simp] theorem run_capacity (m : Memory) :
    lock.capacity.run m = ((m.word64 lock.dataSizeAt).toNat - frameHeaderSize, m) := by simp [capacity]

theorem run_peek_snd (m : Memory) : (lock.peek.run m).2 = m := rfl

theorem run_tryRead_of_odd {m : Memory} (h : m.word64 lock.base % 2 = 1) : lock.tryRead.run m = (none, m) := by
  simp [tryRead, h]

theorem run_tryRead_of_even {m : Memory} (h : m.word64 lock.base % 2 ≠ 1) :
    lock.tryRead.run m = (some (lock.peek.run m).1, m) := by
  simp [tryRead, h, run_peek_snd]

end Seqlock

end MediaChannels
