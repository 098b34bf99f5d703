import MediaChannels.Proofs.Memory.Programs
import MediaChannels.Proofs.Words
import MediaChannels.Seqlock

/-!
# Frames behind a sequence lock

What a complete write leaves for the next reader, and what is left when the writer dies before the end.

* `capacityIn_init`, `not_torn_init`: a lock that was just set up has its capacity, and is not torn.
* `run_tryRead`: a reader finds nothing behind a torn lock, and else the frame in memory (`contents`).
* `torn_run_write_iff`: a complete write keeps the parity of the sequence number, so it mends no torn lock.
* `contents_run_write`: behind a lock that was not torn, the frame just written is found, cut to the capacity.
* `torn_crash_write_iff`: a writer that dies between its two stores of the sequence number turns the parity around.
* `write_storesIn`: a write stays inside the lock.
-/

namespace MediaChannels

namespace Seqlock

variable (lock : Seqlock)

theorem header_le_payload (count : Nat) : lock.base + headerSize ≤ lock.payloadAt + count := by
  simp only [payloadAt, frameAt]
  omega

/-! ## What a reader finds -/

/-- The longest payload that the lock can hold, by the size that stands in memory. -/
def capacityIn (m : Memory) : Nat := (m.word64 lock.dataSizeAt).toNat - frameHeaderSize

/-- The sequence number is odd: a write was begun and has not ended. -/
def Torn (m : Memory) : Prop := m.word64 lock.base % 2 = 1

instance (m : Memory) : Decidable (lock.Torn m) := inferInstanceAs (Decidable (_ = _))

/-- The frame that stands in memory, whether or not it is complete. -/
def frameIn (m : Memory) : Frame :=
  { index := m.word64 lock.frameAt
    flags := m.word32 (lock.frameAt + 12)
    data := m.read lock.payloadAt (min (m.word32 (lock.frameAt + 8)).toNat (lock.capacityIn m)) }

/-- What a reader finds. -/
def contents (m : Memory) : Option Frame := if lock.Torn m then none else some (lock.frameIn m)

theorem run_tryRead (m : Memory) : lock.tryRead.run m = (lock.contents m, m) := by
  unfold contents
  split
  · next h => exact lock.run_tryRead_of_odd h
  · next h =>
    rw [lock.run_tryRead_of_even h]
    simp [peek, frameIn, capacityIn]

section Agreement

variable {lock} {m m' : Memory} {hi : Nat}

theorem capacityIn_congr (h : Memory.Agree lock.base hi m m') (hh : lock.base + headerSize ≤ hi) :
    lock.capacityIn m = lock.capacityIn m' := by
  simp only [headerSize] at hh
  have hd : lock.dataSizeAt + 8 ≤ hi := by
    simp only [dataSizeAt, cacheLine] at hh ⊢
    omega
  rw [capacityIn, capacityIn, h.word64 lock.dataSizeAt (Nat.le_add_right _ _) hd]

theorem torn_congr (h : Memory.Agree lock.base hi m m') (hh : lock.base + headerSize ≤ hi) :
    lock.Torn m ↔ lock.Torn m' := by
  simp only [headerSize, cacheLine] at hh
  rw [Torn, Torn, h.word64 lock.base (Nat.le_refl _) (by omega)]

/-- A reader looks at nothing outside of the lock. -/
theorem contents_congr (h : Memory.Agree lock.base hi m m') (hh : lock.payloadAt + lock.capacityIn m ≤ hi) :
    lock.contents m = lock.contents m' := by
  have hb : lock.base + headerSize ≤ hi := Nat.le_trans (lock.header_le_payload _) hh
  have hc := capacityIn_congr h hb
  have ht := torn_congr h hb
  simp only [payloadAt, frameAt, frameHeaderSize] at hh
  have hf : lock.frameIn m = lock.frameIn m' := by
    rw [frameIn, frameIn, ← hc, h.word64 lock.frameAt, h.word32 (lock.frameAt + 12), h.word32 (lock.frameAt + 8),
      h.read lock.payloadAt]
    all_goals simp only [payloadAt, frameAt, frameHeaderSize]; omega
  simp only [contents, ht, hf]

end Agreement

/-! ## A lock that was just set up -/

section Init

variable {capacity : Nat} (m : Memory)

theorem init_storesIn {hi : Nat} (h : lock.base + headerSize ≤ hi) :
    (lock.init capacity).StoresIn lock.base hi m := by
  simp only [headerSize, cacheLine] at h
  simp only [init, Access.storesIn_bind, Access.storesIn_setWord64, dataSizeAt, cacheLine]
  omega

theorem sequence_init : ((lock.init capacity).run m).2.word64 lock.base = 0 := by
  simp only [init, Access.run_bind, Access.run_setWord64]
  rw [Memory.word64_write_of_disjoint, Memory.word64_write_bytes64]
  simp only [dataSizeAt, cacheLine]
  omega

theorem dataSize_init :
    ((lock.init capacity).run m).2.word64 lock.dataSizeAt = .ofNat (frameHeaderSize + capacity) := by
  simp only [init, Access.run_bind, Access.run_setWord64]
  exact Memory.word64_write_bytes64 _ _ _

theorem capacityIn_init (h : frameHeaderSize + capacity < 2 ^ 64) :
    lock.capacityIn ((lock.init capacity).run m).2 = capacity := by
  rw [capacityIn, dataSize_init, UInt64.toNat_ofNat', Nat.mod_eq_of_lt h, Nat.add_sub_cancel_left]

theorem not_torn_init : ¬lock.Torn ((lock.init capacity).run m).2 := by
  rw [Torn, sequence_init]
  decide

end Init

/-! ## A complete write -/

variable (frame : Frame) (m : Memory)

/-- The part of a payload for which the lock has room. -/
def cut : List UInt8 := frame.data.take (lock.capacityIn m)

theorem length_cut : (lock.cut frame m).length = min (lock.capacityIn m) frame.data.length := List.length_take

/-- The memory with a frame in place, whose write is not ended. -/
def inscribed : Memory :=
  ((m.write lock.base (Memory.bytes64 (m.word64 lock.base + 1))).write lock.frameAt
    (frameHeader frame.index (lock.cut frame m).length frame.flags)).write lock.payloadAt (lock.cut frame m)

theorem run_write :
    (lock.write frame).run m = ((lock.cut frame m).length,
      (lock.inscribed frame m).write lock.base (Memory.bytes64 (m.word64 lock.base + 2))) := by
  simp [write, inscribed, cut, capacityIn]

@[simp] theorem length_frameHeader (index : UInt64) (length : Nat) (flags : UInt32) :
    (frameHeader index length flags).length = frameHeaderSize := by
  simp [frameHeader, frameHeaderSize]

@[simp] theorem storeCount_write :
    (lock.write frame).storeCount m = frameHeaderSize + (lock.cut frame m).length + 2 := by
  simp only [write, capacity, sequence, Access.storeCount_bind, Access.storeCount_word64, Access.storeCount_pure,
    Access.storeCount_setWord64, Access.storeCount_copy, length_frameHeader, Access.run_bind, Access.run_word64,
    Access.run_pure, Access.run_setWord64, Access.run_copy, cut, capacityIn]
  omega

/-- A write stays inside the lock. -/
theorem write_storesIn {hi : Nat} (h : lock.payloadAt + (lock.cut frame m).length ≤ hi) :
    (lock.write frame).StoresIn lock.base hi m := by
  have hl : lock.base ≤ lock.frameAt := Nat.le_add_right _ _
  have hp : lock.frameAt + frameHeaderSize ≤ hi := Nat.le_trans (Nat.le_add_right _ _) h
  have hb : lock.base + 8 ≤ hi := by
    simp only [frameAt, headerSize, cacheLine] at hp
    omega
  rw [cut, capacityIn] at h
  simp only [write, capacity, sequence, Access.storesIn_bind, Access.storesIn_word64, Access.storesIn_pure,
    Access.storesIn_setWord64, Access.run_bind, Access.run_word64, Access.run_pure, Access.run_setWord64,
    Access.run_copy, true_and, and_true, Nat.le_refl, hb]
  constructor
  · apply Access.storesIn_copy _ hl
    rw [length_frameHeader]
    exact hp
  · exact Access.storesIn_copy _ (Nat.le_trans hl (Nat.le_add_right _ _)) h

/-! ## What a write leaves -/

section Leaves

variable {m}

/-- The size of the data region lies between what a write changes. -/
theorem dataSize_write {m' : Memory} {w : UInt64} {header payload : List UInt8} :
    (((m'.write lock.base (Memory.bytes64 w)).write lock.frameAt header).write lock.payloadAt payload).word64
      lock.dataSizeAt = m'.word64 lock.dataSizeAt := by
  rw [Memory.word64_write_of_disjoint, Memory.word64_write_of_disjoint, Memory.word64_write_of_disjoint]
  all_goals simp only [payloadAt, frameAt, headerSize, frameHeaderSize, dataSizeAt, cacheLine,
    Memory.length_bytes64]; omega

/-- The sequence number lies in front of what a write of a frame changes. -/
theorem sequence_write {m' : Memory} {w : UInt64} {header payload : List UInt8} :
    (((m'.write lock.base (Memory.bytes64 w)).write lock.frameAt header).write lock.payloadAt payload).word64
      lock.base = w := by
  rw [Memory.word64_write_of_disjoint, Memory.word64_write_of_disjoint, Memory.word64_write_bytes64]
  all_goals simp only [payloadAt, frameAt, headerSize, frameHeaderSize, cacheLine]; omega

theorem dataSize_run_write :
    ((lock.write frame).run m).2.word64 lock.dataSizeAt = m.word64 lock.dataSizeAt := by
  rw [run_write, Memory.word64_write_of_disjoint, inscribed, dataSize_write]
  simp only [dataSizeAt, cacheLine, Memory.length_bytes64]
  omega

theorem capacityIn_run_write : lock.capacityIn ((lock.write frame).run m).2 = lock.capacityIn m := by
  rw [capacityIn, capacityIn, dataSize_run_write]

/-- **A complete write keeps the parity of the sequence number.** -/
theorem torn_run_write_iff : lock.Torn ((lock.write frame).run m).2 ↔ lock.Torn m := by
  rw [Torn, Torn, run_write, Memory.word64_write_bytes64, add_two_mod_two_eq_one_iff]

/-- The header of a frame, word by word. -/
theorem write_frameHeader (m' : Memory) (offset : Nat) (index : UInt64) (length : Nat) (flags : UInt32) :
    m'.write offset (frameHeader index length flags) =
      ((m'.write offset (Memory.bytes64 index)).write (offset + 8) (LittleEndian.toBytes 4 length)).write (offset + 12)
        (Memory.bytes32 flags) := by
  rw [frameHeader, Memory.write_append, Memory.write_append]
  simp

/-- After a write the frame just written stands in memory. -/
theorem frameIn_run_write (h : lock.capacityIn m < 2 ^ 32) :
    lock.frameIn ((lock.write frame).run m).2 = { frame with data := lock.cut frame m } := by
  have hl : (lock.cut frame m).length ≤ lock.capacityIn m := by
    rw [length_cut]
    exact Nat.min_le_left _ _
  have hindex : ((lock.write frame).run m).2.word64 lock.frameAt = frame.index := by
    rw [run_write, inscribed, write_frameHeader, Memory.word64_write_of_disjoint, Memory.word64_write_of_disjoint,
      Memory.word64_write_of_disjoint, Memory.word64_write_of_disjoint, Memory.word64_write_bytes64]
    all_goals simp only [payloadAt, frameAt, headerSize, frameHeaderSize, cacheLine, Memory.length_bytes64,
      Memory.length_bytes32, LittleEndian.length_toBytes]; omega
  have hlength : ((lock.write frame).run m).2.word32 (lock.frameAt + 8) = UInt32.ofNat (lock.cut frame m).length := by
    rw [run_write, inscribed, write_frameHeader, Memory.word32_write_of_disjoint, Memory.word32_write_of_disjoint,
      Memory.word32_write_of_disjoint, Memory.word32_write_toBytes]
    all_goals simp only [payloadAt, frameAt, headerSize, frameHeaderSize, cacheLine, Memory.length_bytes64,
      Memory.length_bytes32]; omega
  have hflags : ((lock.write frame).run m).2.word32 (lock.frameAt + 12) = frame.flags := by
    rw [run_write, inscribed, write_frameHeader, Memory.word32_write_of_disjoint, Memory.word32_write_of_disjoint,
      Memory.word32_write_bytes32]
    all_goals simp only [payloadAt, frameAt, headerSize, frameHeaderSize, cacheLine, Memory.length_bytes64]; omega
  have hdata : ((lock.write frame).run m).2.read lock.payloadAt (lock.cut frame m).length = lock.cut frame m := by
    rw [run_write, inscribed, Memory.read_write_of_disjoint, Memory.read_write]
    simp only [payloadAt, frameAt, headerSize, frameHeaderSize, cacheLine, Memory.length_bytes64]
    omega
  have hcount : min (UInt32.ofNat (lock.cut frame m).length).toNat (lock.capacityIn m) = (lock.cut frame m).length := by
    rw [UInt32.toNat_ofNat', Nat.mod_eq_of_lt (by omega)]
    exact Nat.min_eq_left hl
  rw [frameIn, hindex, hlength, hflags, capacityIn_run_write, hcount, hdata]

/-- **Behind a lock that was not torn, the frame just written is found, cut to the capacity; behind a torn one nothing
is.** -/
theorem contents_run_write (h : lock.capacityIn m < 2 ^ 32) :
    lock.contents ((lock.write frame).run m).2 =
      if lock.Torn m then none else some { frame with data := lock.cut frame m } := by
  simp only [contents, torn_run_write_iff, frameIn_run_write lock frame h]

/-! ## A write that stops early -/

/-- Between its two stores of the sequence number a write has made it one larger, and has begun to store the frame. -/
theorem crash_write {n : Nat} (h0 : 0 < n) (hn : n < frameHeaderSize + (lock.cut frame m).length + 2) :
    ∃ header payload, (lock.write frame).crash n m =
      ((m.write lock.base (Memory.bytes64 (m.word64 lock.base + 1))).write lock.frameAt header).write lock.payloadAt
        payload := by
  obtain ⟨n, rfl⟩ : ∃ k, n = k + 1 := ⟨n - 1, by omega⟩
  have hs : (lock.write frame).crash (n + 1) m =
      (Access.copy lock.frameAt (frameHeader frame.index (lock.cut frame m).length frame.flags) >>= fun _ =>
        Access.copy lock.payloadAt (lock.cut frame m) >>= fun _ =>
        Access.setWord64 lock.base (m.word64 lock.base + 2) >>= fun _ => pure (lock.cut frame m).length).crash n
          (m.write lock.base (Memory.bytes64 (m.word64 lock.base + 1))) := by
    rw [write, Access.crash_bind_of_no_store _ (by simp [capacity]),
      Access.crash_bind_of_no_store _ (by simp [sequence]), Access.crash_bind_of_le _ (Nat.le_add_left 1 n)]
    simp [cut, capacityIn]
  rw [hs]
  by_cases h1 : n < frameHeaderSize
  · refine ⟨(frameHeader frame.index (lock.cut frame m).length frame.flags).take n, [], ?_⟩
    rw [Access.crash_bind_of_lt _ (by rwa [Access.storeCount_copy, length_frameHeader]), Access.crash_copy,
      Memory.write_nil]
  · refine ⟨frameHeader frame.index (lock.cut frame m).length frame.flags,
      (lock.cut frame m).take (n - frameHeaderSize), ?_⟩
    rw [Access.crash_bind_of_le _ (by rw [Access.storeCount_copy, length_frameHeader]; omega), Access.storeCount_copy,
      length_frameHeader, Access.run_copy]
    by_cases h2 : n - frameHeaderSize < (lock.cut frame m).length
    · rw [Access.crash_bind_of_lt _ (by rwa [Access.storeCount_copy]), Access.crash_copy]
    · rw [Access.crash_bind_of_le _ (by rw [Access.storeCount_copy]; omega), Access.storeCount_copy, Access.run_copy,
        List.take_of_length_le (by omega), show n - frameHeaderSize - (lock.cut frame m).length = 0 by omega,
        Access.crash_zero]

theorem crash_write_of_le {n : Nat} (hn : frameHeaderSize + (lock.cut frame m).length + 2 ≤ n) :
    (lock.write frame).crash n m = ((lock.write frame).run m).2 :=
  Access.crash_of_le _ _ (by rwa [storeCount_write])

theorem dataSize_crash_write (n : Nat) :
    ((lock.write frame).crash n m).word64 lock.dataSizeAt = m.word64 lock.dataSizeAt := by
  rcases Nat.eq_zero_or_pos n with rfl | h0
  · rw [Access.crash_zero]
  rcases Nat.lt_or_ge n (frameHeaderSize + (lock.cut frame m).length + 2) with hn | hn
  · obtain ⟨header, payload, h⟩ := crash_write lock frame h0 hn
    rw [h, dataSize_write]
  · rw [crash_write_of_le lock frame hn, dataSize_run_write]

/-- **A write that dies between its two stores of the sequence number turns the parity around.** -/
theorem torn_crash_write_iff (n : Nat) :
    lock.Torn ((lock.write frame).crash n m) ↔
      if 0 < n ∧ n < frameHeaderSize + (lock.cut frame m).length + 2 then ¬lock.Torn m else lock.Torn m := by
  split
  · next h =>
    obtain ⟨header, payload, hc⟩ := crash_write lock frame h.1 h.2
    rw [hc, Torn, sequence_write, add_one_mod_two_eq_one_iff, Torn]
  · next h =>
    rcases Nat.eq_zero_or_pos n with rfl | h0
    · rw [Access.crash_zero]
    · rw [crash_write_of_le lock frame (by omega), torn_run_write_iff]

end Leaves

end Seqlock

end MediaChannels
