import MediaChannels.Proofs.Memory.Footprint
import MediaChannels.Proofs.PacketRing.Walks

/-!
# The footprint of a packet ring

All offsets at which a ring is accessed are computed from sizes that stand in its memory. While these are the sizes that
setting up has left, nothing leaves the space that was reserved for the ring, and the sizes stay.

* `Seqlock.tryRead_within`, `Seqlock.write_within`: a lock is read and written up to the end of its payload.
* `SetUp.push_within`, `Sized.next_within`: publishing and walking stay inside the ring.
* `SetUp.push`: publishing leaves the sizes alone, also when it is refused.
-/

namespace MediaChannels

open Access

namespace Seqlock

variable (lock : Seqlock) {m : Memory} {hi : Nat}

/-- Reading stays inside the lock, up to the longest payload that it can hold. -/
theorem tryRead_within (h : lock.payloadAt + lock.capacityIn m ≤ hi) : lock.tryRead.Within (Inside lock.base hi) m := by
  have hcount : min (m.word32 (lock.frameAt + 8)).toNat (lock.capacityIn m) ≤ lock.capacityIn m := Nat.min_le_right _ _
  have hstart : lock.base + 144 ≤ hi := Nat.le_trans (Nat.le_add_right _ _) h
  rw [capacityIn] at hcount h
  simp only [tryRead, sequence, within_bind, within_word64, run_word64]
  refine ⟨⟨Nat.le_refl _, by omega⟩, ?_⟩
  split
  · exact within_pure _ _
  · simp only [peek, capacity, within_bind, within_word64, within_word32, within_bytes, within_pure, run_bind,
      run_word64, run_word32, run_bytes, run_pure, and_true]
    simp only [Inside, payloadAt, frameAt, dataSizeAt, headerSize, frameHeaderSize, cacheLine] at hcount h ⊢
    omega

/-- Writing stays inside the lock, up to the end of the payload. -/
theorem write_within {frame : Frame} (h : lock.payloadAt + (lock.cut frame m).length ≤ hi) :
    (lock.write frame).Within (Inside lock.base hi) m := by
  have hstart : lock.base + 144 ≤ hi := Nat.le_trans (Nat.le_add_right _ _) h
  have hframe : lock.frameAt = lock.base + 128 := rfl
  have hpayload : lock.payloadAt = lock.base + 144 := rfl
  have hsize : lock.dataSizeAt = lock.base + 64 := rfl
  rw [cut, capacityIn] at h
  simp only [write, sequence, capacity, within_bind, within_word64, within_setWord64, within_pure, run_bind, run_word64,
    run_pure, run_setWord64, run_copy, and_true]
  refine ⟨⟨by omega, by omega⟩, ⟨Nat.le_refl _, by omega⟩, ⟨Nat.le_refl _, by omega⟩, within_copy _ (by omega) ?_,
    within_copy _ (by omega) h, ⟨Nat.le_refl _, by omega⟩⟩
  rw [length_frameHeader, frameHeaderSize]
  omega

end Seqlock

namespace PacketRing

variable {ring : PacketRing} {g : Geometry} {m m' : Memory}

/-- Where a ring with a geometry ends. -/
def stop (ring : PacketRing) (g : Geometry) : Nat := ring.base + size g.queueSize g.slotSize

/-- The counter and the sizes stand in front of the slots. -/
theorem header_bounds (ring : PacketRing) (g : Geometry) :
    ring.sizesAt = ring.base + 64 ∧ ring.base + 128 ≤ ring.stop g :=
  ⟨rfl, Nat.add_le_add_left (Nat.le_add_right _ _) _⟩

theorem base_le_slotAt (i : Nat) : ring.base ≤ (ring.slotAt g i).base :=
  Nat.le_trans (Nat.le_add_right _ _) (ring.slotsAt_le_slotAt g i)

/-- The last slot ends with the ring. -/
theorem slotAt_end_le_stop {i : Nat} (hi : i < g.queueSize) :
    (ring.slotAt g i).payloadAt + g.slotSize ≤ ring.stop g := by
  have hend := ring.slotAt_end_le g i
  have hm := Nat.mul_le_mul_right g.stride hi
  rw [Nat.succ_mul] at hm
  have hstride : Seqlock.size g.slotSize = g.stride := rfl
  simp only [stop, size, hstride]
  simp only [slotAt, slotsAt] at hend ⊢
  omega

/-- What a ring is set up with depends only on the bytes of the ring. -/
theorem SetUp.congr (h : ring.SetUp g m) (ha : Memory.Agree ring.base (ring.stop g) m' m) : ring.SetUp g m' := by
  obtain ⟨hsizes, hheader⟩ := header_bounds ring g
  refine ⟨?_, ?_, ?_, fun i hi => ?_⟩
  · rw [ha.word64 _ (by omega) (by omega), h.queueSize_eq]
  · rw [ha.word64 _ (by omega) (by omega), h.slotSize_eq]
  · rw [ha.word64 _ (by omega) (by omega), h.stride_eq]
  · have hslot := ring.slotAt_end_le_stop hi
    have hbase := ring.base_le_slotAt (g := g) i
    have hsize : (ring.slotAt g i).dataSizeAt = (ring.slotAt g i).base + 64 := rfl
    simp only [Seqlock.payloadAt, Seqlock.frameAt, Seqlock.headerSize, cacheLine] at hslot
    rw [ha.word64 _ (by omega) (by omega), h.dataSize_eq i hi]

/-- Publishing leaves the sizes alone, also when it is refused. -/
theorem SetUp.push (h : ring.SetUp g m) (packet : Packet) : ring.SetUp g ((ring.push packet).run m).2 := by
  rcases Nat.lt_or_ge g.slotSize packet.data.length with hp | hp
  · have hrefused : ((ring.push packet).run m).2 = m := by
      simp [PacketRing.push, h.slotSize_eq, g.toNat_slotSize, hp]
    rw [hrefused]
    exact h
  · exact h.of_touches (touches_push h hp)

/-! ## Accesses -/

theorem writeIndex_within : ring.writeIndex.Within (Inside ring.base (ring.stop g)) m := by
  obtain ⟨-, hheader⟩ := header_bounds ring g
  exact (within_word64 _ _).2 ⟨Nat.le_refl _, by omega⟩

theorem queueSize_within : ring.queueSize.Within (Inside ring.base (ring.stop g)) m := by
  obtain ⟨hsizes, hheader⟩ := header_bounds ring g
  exact (within_word64 _ _).2 ⟨by omega, by omega⟩

theorem slotSize_within : ring.slotSize.Within (Inside ring.base (ring.stop g)) m := by
  obtain ⟨hsizes, hheader⟩ := header_bounds ring g
  exact (within_word64 _ _).2 ⟨by omega, by omega⟩

theorem poll_within (cursor : UInt64) : (ring.poll cursor).Within (Inside ring.base (ring.stop g)) m :=
  (within_bind _ _ _).2 ⟨writeIndex_within, within_pure _ _⟩

section Sized

variable {queueSize slotSize : Nat}

theorem base_le_lockAt (i : Nat) : ring.base ≤ (ring.lockAt slotSize i).base :=
  Nat.le_trans (Nat.le_add_right _ _) (Nat.le_add_right _ _)

/-- The last slot ends with the ring. -/
theorem lockAt_end_le {i : Nat} (hi : i < queueSize) :
    (ring.lockAt slotSize i).payloadAt + slotSize ≤ ring.base + size queueSize slotSize := by
  have hstride : Seqlock.headerSize + Seqlock.frameHeaderSize + slotSize ≤ Seqlock.size slotSize := le_alignUp _
  have hm := Nat.mul_le_mul_right (Seqlock.size slotSize) hi
  rw [Nat.succ_mul] at hm
  simp only [Seqlock.payloadAt, Seqlock.frameAt, lockAt, slotsAt, size]
  omega

/-- No ring that has its sizes has zero slots. -/
theorem Sized.slot_within (h : ring.Sized queueSize slotSize m) (index : UInt64) :
    (ring.slot index).Within (Inside ring.base (ring.base + size queueSize slotSize)) m := by
  have hheader : ring.base + 128 ≤ ring.base + size queueSize slotSize :=
    Nat.add_le_add_left (Nat.le_add_right _ _) _
  have hsizes : ring.sizesAt = ring.base + 64 := rfl
  have hne : UInt64.ofNat queueSize ≠ 0 := by
    intro h0
    have hcount : (UInt64.ofNat queueSize).toNat = queueSize := by
      rw [UInt64.toNat_ofNat', Nat.mod_eq_of_lt h.queueSize_lt]
    rw [h0, UInt64.toNat_zero] at hcount
    exact absurd h.queueSize_pos (by omega)
  simp only [slot, PacketRing.queueSize, within_bind, within_word64, within_rem, within_pure, run_word64, run_rem,
    h.queueSize_eq, and_true]
  exact ⟨⟨by omega, by omega⟩, hne, by omega, by omega⟩

theorem Sized.tryRead_within (h : ring.Sized queueSize slotSize m) {i : Nat} (hi : i < queueSize) :
    (ring.lockAt slotSize i).tryRead.Within (Inside ring.base (ring.base + size queueSize slotSize)) m := by
  have hend : (ring.lockAt slotSize i).payloadAt + (ring.lockAt slotSize i).capacityIn m ≤
      ring.base + size queueSize slotSize := by
    rw [h.capacityIn hi]
    exact lockAt_end_le hi
  exact (Seqlock.tryRead_within _ hend).mono fun _ _ hin => ⟨Nat.le_trans (base_le_lockAt i) hin.1, hin.2⟩

/-- **A walk stays inside the ring**, whatever stands in the slots and however many of them it passes over. -/
theorem Sized.next_within (h : ring.Sized queueSize slotSize m) (p : Poll) :
    (ring.next p).Within (Inside ring.base (ring.base + size queueSize slotSize)) m := by
  have hheader : ring.base + 128 ≤ ring.base + size queueSize slotSize :=
    Nat.add_le_add_left (Nat.le_add_right _ _) _
  have hsizes : ring.sizesAt = ring.base + 64 := rfl
  induction hr : p.stop.toNat - p.cursor.toNat using Nat.strongRecOn generalizing p with
  | ind r ih =>
    rw [next]
    split
    · exact within_pure _ _
    simp only [writeIndex, PacketRing.queueSize, within_bind, within_word64, run_word64]
    refine ⟨⟨Nat.le_refl _, by omega⟩, ⟨by omega, by omega⟩, ?_⟩
    split
    · exact within_pure _ _
    · next hlt =>
      have hplace : ((p.skipTo (floor (m.word64 ring.base) (m.word64 ring.sizesAt))).cursor + 1 - 1).toNat % queueSize <
          queueSize := Nat.mod_lt _ h.queueSize_pos
      simp only [within_bind, h.run_slot, Seqlock.run_tryRead]
      refine ⟨h.slot_within _, h.tryRead_within hplace, ?_⟩
      split
      · exact within_pure _ _
      · exact ih _ (hr ▸ p.remaining_skip_lt _ hlt) _ rfl

end Sized

theorem SetUp.slot_within (h : ring.SetUp g m) (index : UInt64) :
    (ring.slot index).Within (Inside ring.base (ring.stop g)) m := h.sized.slot_within index

/-- **A walk stays inside the ring.** -/
theorem SetUp.next_within (h : ring.SetUp g m) (p : Poll) :
    (ring.next p).Within (Inside ring.base (ring.stop g)) m := h.sized.next_within p

theorem SetUp.write_within (h : ring.SetUp g m) {i : Nat} (hi : i < g.queueSize) (frame : Frame) :
    ((ring.slotAt g i).write frame).Within (Inside ring.base (ring.stop g)) m := by
  have hwrite : ((ring.slotAt g i).write frame).Within (Inside (ring.slotAt g i).base (ring.stop g)) m := by
    apply Seqlock.write_within
    rw [Seqlock.length_cut, h.capacityIn hi]
    exact Nat.le_trans (Nat.add_le_add_left (Nat.min_le_left _ _) _) (slotAt_end_le_stop hi)
  exact hwrite.mono fun start stop hin => ⟨Nat.le_trans (base_le_slotAt i) hin.1, hin.2⟩

/-- **Publishing stays inside the ring.** -/
theorem SetUp.push_within (h : ring.SetUp g m) (packet : Packet) :
    (ring.push packet).Within (Inside ring.base (ring.stop g)) m := by
  obtain ⟨-, hheader⟩ := header_bounds ring g
  rw [PacketRing.push, within_bind, run_slotSize]
  refine ⟨slotSize_within, ?_⟩
  split
  · exact within_pure _ _
  · simp only [within_bind, run_writeIndex, h.run_slot, within_setWord64, within_pure, and_true]
    exact ⟨writeIndex_within, h.slot_within _, h.write_within (g.place_lt _) _, ⟨Nat.le_refl _, by omega⟩⟩

end PacketRing

end MediaChannels
