import MediaChannels.Proofs.EventLanes.Lane
import MediaChannels.Proofs.Memory.Footprint

/-!
# The footprint of an event lane

The slots of a lane are found by its two counters modulo the number of slots that stands in its memory. Whatever the
counters are, nothing leaves the space that was reserved for the lane while that number is the right one; and nothing
that is done to a lane changes it.

* `Sized.push_within`, `Sized.take_within`, `Sized.lastAmong_within`: all that is done to a lane stays inside it.
* `Sized.push`, `Sized.take`, `Sized.lastAmong`: and leaves the number of slots alone.
-/

namespace MediaChannels

namespace Lane

open Access

/-- Where a lane ends. -/
def stop (lane : Lane) (slots : Nat) : Nat := lane.base + size slots

variable {lane : Lane} {slots : Nat} {m m' : Memory}

/-- The counters and the number of slots stand in front of the slots. -/
theorem header_bounds (lane : Lane) (slots : Nat) :
    lane.readAt = lane.base + 64 ∧ lane.slotCountAt = lane.base + 128 ∧ lane.base + 192 ≤ lane.stop slots :=
  ⟨rfl, rfl, Nat.add_le_add_left (header_le_size slots) _⟩

namespace Sized

theorem congr (h : lane.Sized slots m) (ha : Memory.Agree lane.base (lane.stop slots) m' m) : lane.Sized slots m' := by
  obtain ⟨-, hcount, hheader⟩ := header_bounds lane slots
  refine ⟨h.slots_pos, h.slots_lt, ?_⟩
  rw [ha.word64 _ (by omega) (by omega), h.slotCount_eq]

/-- The number of slots lies apart from what is done to the counters and the slots. -/
theorem write (h : lane.Sized slots m) {offset : Nat} {bytes : List UInt8}
    (hd : offset + bytes.length ≤ lane.slotCountAt ∨ lane.slotCountAt + 8 ≤ offset) :
    lane.Sized slots (m.write offset bytes) :=
  ⟨h.slots_pos, h.slots_lt, (Memory.word64_write_of_disjoint m hd.symm).trans h.slotCount_eq⟩

/-- Counting entries as taken. -/
theorem write_taken (h : lane.Sized slots m) (taken : UInt64) :
    lane.Sized slots (m.write lane.readAt (Memory.bytes64 taken)) := by
  apply h.write
  simp only [readAt, slotCountAt, cacheLine, Memory.length_bytes64]
  omega

/-! ## Slots -/

/-- Every counter leads to a slot inside the lane. -/
theorem slotFor_bounds (h : lane.Sized slots m) (counter : UInt64) :
    lane.base + 192 ≤ lane.slotFor (counter.toNat % slots) ∧
      lane.slotFor (counter.toNat % slots) + 16 ≤ lane.stop slots :=
  ⟨Nat.le_add_right _ _, lane.slotFor_end_le (Nat.mod_lt _ h.slots_pos)⟩

/-- No lane has zero slots. -/
theorem slotAt_within (h : lane.Sized slots m) (counter : UInt64) :
    (lane.slotAt counter).Within (Inside lane.base (lane.stop slots)) m := by
  obtain ⟨-, hcount, hheader⟩ := header_bounds lane slots
  have hne : UInt64.ofNat slots ≠ 0 := by
    intro h0
    have hpos := h.slots_pos
    rw [← h.toNat_slots, h0] at hpos
    exact absurd hpos (by decide)
  simp only [slotAt, within_bind, within_word64, within_rem, within_pure, run_word64, run_rem, h.slotCount_eq, and_true]
  exact ⟨⟨by omega, by omega⟩, hne⟩

/-! ## Appending -/

theorem push_within (h : lane.Sized slots m) (tag : UInt32) (value : Int64) :
    (lane.push tag value).Within (Inside lane.base (lane.stop slots)) m := by
  obtain ⟨hslot, hend⟩ := h.slotFor_bounds (m.word64 lane.base)
  obtain ⟨hread, hcount, -⟩ := header_bounds lane slots
  simp only [Lane.push, within_bind, within_word64, run_word64]
  refine ⟨⟨Nat.le_refl _, by omega⟩, ⟨by omega, by omega⟩, ⟨by omega, by omega⟩, ?_⟩
  split
  · exact within_pure _ _
  · simp only [within_bind, h.run_slotAt, within_setWord32, within_setWord64, within_pure, and_true]
    exact ⟨h.slotAt_within _, ⟨by omega, by omega⟩, ⟨by omega, by omega⟩, ⟨Nat.le_refl _, by omega⟩⟩

theorem push (h : lane.Sized slots m) (tag : UInt32) (value : Int64) :
    lane.Sized slots ((lane.push tag value).run m).2 := by
  obtain ⟨hslot, -⟩ := h.slotFor_bounds (m.word64 lane.base)
  obtain ⟨-, hcount, -⟩ := header_bounds lane slots
  simp only [Lane.push, run_bind, run_word64]
  split
  · exact h
  · simp only [run_bind, h.run_slotAt, run_setWord32, run_setWord64, run_pure]
    refine ((h.write (.inr ?_)).write (.inr ?_)).write (.inl ?_)
    · omega
    · omega
    · rw [Memory.length_bytes64]
      omega

/-! ## Taking -/

variable (kind : ControlKind) (consume : Bool)

/-- One turn of a search stays inside the lane, and so does the rest of it, whatever the turn leaves. -/
theorem takeAmong_within (h : lane.Sized slots m) (count : Nat) :
    (lane.takeAmong kind consume count).Within (Inside lane.base (lane.stop slots)) m := by
  induction count generalizing m with
  | zero => exact within_pure _ _
  | succ count ih =>
    obtain ⟨hslot, hend⟩ := h.slotFor_bounds (m.word64 lane.readAt)
    obtain ⟨hread, -, -⟩ := header_bounds lane slots
    have hcounter : Inside lane.base (lane.stop slots) lane.readAt (lane.readAt + 8) := ⟨by omega, by omega⟩
    simp only [Lane.takeAmong, within_bind, within_word64, within_word32, run_word64, run_word32, h.run_slotAt]
    refine ⟨hcounter, h.slotAt_within _, ⟨by omega, by omega⟩, ⟨by omega, by omega⟩, ?_⟩
    split
    · cases consume with
      | true => exact (within_bind _ _ _).2 ⟨(within_setWord64 _ _ _).2 hcounter, within_pure _ _⟩
      | false => exact within_pure _ _
    · exact (within_bind _ _ _).2 ⟨(within_setWord64 _ _ _).2 hcounter, ih (h.write_taken _)⟩

theorem takeAmong (h : lane.Sized slots m) (count : Nat) :
    lane.Sized slots ((lane.takeAmong kind consume count).run m).2 := by
  induction count generalizing m with
  | zero => exact h
  | succ count ih =>
    simp only [Lane.takeAmong, run_bind, run_word64, run_word32, h.run_slotAt]
    split
    · cases consume with
      | true => exact h.write_taken _
      | false => exact h
    · exact ih (h.write_taken _)

theorem pending_within (_h : lane.Sized slots m) : lane.pending.Within (Inside lane.base (lane.stop slots)) m := by
  obtain ⟨hread, -, hheader⟩ := header_bounds lane slots
  simp only [pending, within_bind, within_word64, within_pure, and_true]
  exact ⟨⟨Nat.le_refl _, by omega⟩, ⟨by omega, by omega⟩⟩

theorem take_within (h : lane.Sized slots m) :
    (lane.take kind consume).Within (Inside lane.base (lane.stop slots)) m := by
  rw [Lane.take, within_bind]
  exact ⟨h.pending_within, h.takeAmong_within kind consume _⟩

theorem take (h : lane.Sized slots m) : lane.Sized slots ((lane.take kind consume).run m).2 := by
  rw [Lane.take, run_bind]
  exact h.takeAmong kind consume _

theorem lastAmong_within (h : lane.Sized slots m) (best : Option ControlEvent) (count : Nat) :
    (lane.lastAmong kind best count).Within (Inside lane.base (lane.stop slots)) m := by
  induction count generalizing m best with
  | zero => exact within_pure _ _
  | succ count ih =>
    rw [Lane.lastAmong, within_bind]
    refine ⟨h.take_within kind true, ?_⟩
    split
    · exact ih (h.take kind true) _
    · exact within_pure _ _

theorem lastAmong (h : lane.Sized slots m) (best : Option ControlEvent) (count : Nat) :
    lane.Sized slots ((lane.lastAmong kind best count).run m).2 := by
  induction count generalizing m best with
  | zero => exact h
  | succ count ih =>
    rw [Lane.lastAmong, run_bind]
    split
    · exact ih (h.take kind true) _
    · exact h.take kind true

end Sized

end Lane

end MediaChannels
