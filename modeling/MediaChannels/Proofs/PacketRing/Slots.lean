import MediaChannels.PacketRing
import MediaChannels.Proofs.Seqlock

/-!
# Slots of a packet ring

Where the slots of a ring lie, and what setting up, publishing and stopping in the middle of publishing do to them.

* `slotAt_le`: the slots follow one another, and a full frame ends before the next slot starts.
* `setUp_init`: setting up a ring leaves its sizes, no packet, and no torn slot.
* `crash_push_of_lt`: until its last store, which is that of the index, publishing only writes the slot of its packet.
* `SetUp.of_touches`, `contents_of_touches`: such work leaves the sizes and all other slots alone.
* `contents_push`: after publishing, the slot holds the packet, unless it was torn before.
-/

namespace MediaChannels

/-- The frame in which a packet travels. -/
def Packet.frame (packet : Packet) (index : UInt64) : Frame :=
  { index, flags := packet.marks.toFlags, data := packet.data }

namespace PacketRing

/-- The sizes with which a ring can be set up: both are words, and a frame stores the length of its payload in 32
bits. -/
structure Geometry where
  queueSize : Nat
  slotSize : Nat
  queueSize_pos : 0 < queueSize := by decide
  queueSize_lt : queueSize < 2 ^ 64 := by decide
  slotSize_lt : slotSize < 2 ^ 32 := by decide

namespace Geometry

variable (g : Geometry)

/-- The distance of two slots. -/
def stride : Nat := Seqlock.size g.slotSize

/-- The number of the slot in which the packet with an index lives. -/
def place (index : UInt64) : Nat := (index - 1).toNat % g.queueSize

theorem place_lt (index : UInt64) : g.place index < g.queueSize := Nat.mod_lt _ g.queueSize_pos

theorem le_stride : Seqlock.headerSize + Seqlock.frameHeaderSize + g.slotSize ≤ g.stride := le_alignUp _

theorem stride_lt : g.stride < 2 ^ 64 := by
  have h := alignUp_lt (Seqlock.headerSize + Seqlock.frameHeaderSize + g.slotSize)
  have hs := g.slotSize_lt
  simp only [Seqlock.headerSize, Seqlock.frameHeaderSize, cacheLine] at h
  simp only [stride, Seqlock.size, Seqlock.headerSize, Seqlock.frameHeaderSize, cacheLine]
  omega

theorem toNat_queueSize : (UInt64.ofNat g.queueSize).toNat = g.queueSize := by
  rw [UInt64.toNat_ofNat', Nat.mod_eq_of_lt g.queueSize_lt]

theorem toNat_slotSize : (UInt64.ofNat g.slotSize).toNat = g.slotSize := by
  have := g.slotSize_lt
  rw [UInt64.toNat_ofNat', Nat.mod_eq_of_lt (by omega)]

end Geometry

variable (ring : PacketRing) (g : Geometry)

/-! ## Where the slots lie -/

/-- The slot with a number. -/
def slotAt (i : Nat) : Seqlock := ⟨ring.slotsAt + i * g.stride⟩

theorem slotsAt_le_slotAt (i : Nat) : ring.slotsAt ≤ (ring.slotAt g i).base := Nat.le_add_right _ _

theorem slotAt_end_le (i : Nat) : (ring.slotAt g i).payloadAt + g.slotSize ≤ (ring.slotAt g i).base + g.stride := by
  have := g.le_stride
  simp only [Seqlock.payloadAt, Seqlock.frameAt]
  omega

/-- The slots follow one another. -/
theorem slotAt_le {i j : Nat} (h : i < j) : (ring.slotAt g i).payloadAt + g.slotSize ≤ (ring.slotAt g j).base := by
  have hm := Nat.mul_le_mul_right g.stride h
  rw [Nat.succ_mul] at hm
  refine Nat.le_trans (ring.slotAt_end_le g i) ?_
  simp only [slotAt]
  omega

/-! ## Rings that are set up -/

/-- The sizes of a ring and of its slots stand in memory, as setting up leaves them. -/
structure SetUp (m : Memory) : Prop where
  queueSize_eq : m.word64 ring.sizesAt = .ofNat g.queueSize
  slotSize_eq : m.word64 (ring.sizesAt + 8) = .ofNat g.slotSize
  stride_eq : m.word64 (ring.sizesAt + 16) = .ofNat g.stride
  dataSize_eq : ∀ i < g.queueSize,
    m.word64 (ring.slotAt g i).dataSizeAt = .ofNat (Seqlock.frameHeaderSize + g.slotSize)

/-- The slot with a number, in a ring whose slots take so many bytes. -/
def lockAt (slotSize i : Nat) : Seqlock := ⟨ring.slotsAt + i * Seqlock.size slotSize⟩

/-- The sizes stand in memory as setting up leaves them, also those with which a payload may be longer than a frame can
say. -/
structure Sized (queueSize slotSize : Nat) (m : Memory) : Prop where
  queueSize_pos : 0 < queueSize
  queueSize_lt : queueSize < 2 ^ 64
  stride_lt : Seqlock.size slotSize < 2 ^ 64
  queueSize_eq : m.word64 ring.sizesAt = .ofNat queueSize
  slotSize_eq : m.word64 (ring.sizesAt + 8) = .ofNat slotSize
  stride_eq : m.word64 (ring.sizesAt + 16) = .ofNat (Seqlock.size slotSize)
  dataSize_eq : ∀ i < queueSize,
    m.word64 (ring.lockAt slotSize i).dataSizeAt = .ofNat (Seqlock.frameHeaderSize + slotSize)

variable {ring g} {m : Memory}

theorem SetUp.sized (h : ring.SetUp g m) : ring.Sized g.queueSize g.slotSize m :=
  ⟨g.queueSize_pos, g.queueSize_lt, g.stride_lt, h.queueSize_eq, h.slotSize_eq, h.stride_eq, h.dataSize_eq⟩

@[simp] theorem run_writeIndex (m : Memory) : ring.writeIndex.run m = (m.word64 ring.base, m) :=
  Access.run_word64 _ _

@[simp] theorem run_queueSize (m : Memory) : ring.queueSize.run m = (m.word64 ring.sizesAt, m) :=
  Access.run_word64 _ _

@[simp] theorem run_slotSize (m : Memory) : ring.slotSize.run m = (m.word64 (ring.sizesAt + 8), m) :=
  Access.run_word64 _ _

@[simp] theorem storeCount_writeIndex (m : Memory) : ring.writeIndex.storeCount m = 0 := rfl

@[simp] theorem storeCount_queueSize (m : Memory) : ring.queueSize.storeCount m = 0 := rfl

@[simp] theorem storeCount_slotSize (m : Memory) : ring.slotSize.storeCount m = 0 := rfl

section Sized

variable {queueSize slotSize : Nat}

theorem Sized.run_slot (h : ring.Sized queueSize slotSize m) (index : UInt64) :
    (ring.slot index).run m = (ring.lockAt slotSize ((index - 1).toNat % queueSize), m) := by
  have hcount : (UInt64.ofNat queueSize).toNat = queueSize := by
    rw [UInt64.toNat_ofNat', Nat.mod_eq_of_lt h.queueSize_lt]
  have hstride : (UInt64.ofNat (Seqlock.size slotSize)).toNat = Seqlock.size slotSize := by
    rw [UInt64.toNat_ofNat', Nat.mod_eq_of_lt h.stride_lt]
  simp [slot, h.queueSize_eq, h.stride_eq, lockAt, hcount, hstride]

theorem Sized.capacityIn (h : ring.Sized queueSize slotSize m) {i : Nat} (hi : i < queueSize) :
    (ring.lockAt slotSize i).capacityIn m = slotSize := by
  have hstride : Seqlock.headerSize + Seqlock.frameHeaderSize + slotSize ≤ Seqlock.size slotSize := le_alignUp _
  have hlt := h.stride_lt
  rw [Seqlock.capacityIn, h.dataSize_eq i hi, UInt64.toNat_ofNat', Nat.mod_eq_of_lt (by omega), Nat.add_sub_cancel_left]

end Sized

theorem SetUp.run_slot (h : ring.SetUp g m) (index : UInt64) :
    (ring.slot index).run m = (ring.slotAt g (g.place index), m) := h.sized.run_slot index

theorem SetUp.capacityIn (h : ring.SetUp g m) {i : Nat} (hi : i < g.queueSize) :
    (ring.slotAt g i).capacityIn m = g.slotSize := h.sized.capacityIn hi

theorem storeCount_slot (index : UInt64) : (ring.slot index).storeCount m = 0 := by
  simp [slot]

theorem slotLoop_initSlots (slotSize : Nat) :
    Access.SlotLoop (Seqlock.size slotSize) (fun offset => Seqlock.init ⟨offset⟩ slotSize) (initSlots slotSize) where
  zero _ := rfl
  succ _ _ := rfl
  body_storesIn offset m := by
    have hs : Seqlock.headerSize + Seqlock.frameHeaderSize + slotSize ≤ Seqlock.size slotSize := le_alignUp _
    exact Seqlock.init_storesIn ⟨offset⟩ m (by dsimp only; omega)

/-- Setting up slots makes all of them whole and empty. -/
theorem words_initSlots (slotSize : Nat) {count : Nat} (offset : Nat) (m : Memory) {i : Nat} (hi : i < count) :
    (((initSlots slotSize count offset).run m).2.word64 (offset + i * Seqlock.size slotSize) = 0) ∧
      ((initSlots slotSize count offset).run m).2.word64 (offset + i * Seqlock.size slotSize + cacheLine) =
        .ofNat (Seqlock.frameHeaderSize + slotSize) := by
  have hs : Seqlock.headerSize + Seqlock.frameHeaderSize + slotSize ≤ Seqlock.size slotSize := le_alignUp _
  simp only [Seqlock.headerSize, Seqlock.frameHeaderSize, cacheLine] at hs
  obtain ⟨before, ha⟩ := (slotLoop_initSlots slotSize).agree_slot hi offset m
  rw [ha.word64 _ (Nat.le_refl _) (by omega),
    ha.word64 _ (Nat.le_add_right _ _) (by simp only [cacheLine]; omega)]
  exact ⟨Seqlock.sequence_init ⟨_⟩ before, Seqlock.dataSize_init ⟨_⟩ before⟩

theorem init_storesIn (ring : PacketRing) (queueSize slotSize : Nat) (m : Memory) :
    (ring.init queueSize slotSize).StoresIn ring.base (ring.base + size queueSize slotSize) m := by
  have hs : headerSize ≤ size queueSize slotSize := Nat.le_add_right _ _
  simp only [headerSize, cacheLine] at hs
  simp only [init, Access.storesIn_bind, Access.storesIn_setWord64, sizesAt, cacheLine]
  refine ⟨by omega, by omega, by omega, by omega, ((slotLoop_initSlots _).storesIn _ _ _).mono (Nat.le_add_right _ _) ?_⟩
  simp only [slotsAt, size]
  omega

/-- The words that setting up a ring leaves in memory. -/
theorem words_init (ring : PacketRing) (queueSize slotSize : Nat) (m : Memory) :
    let m' := ((ring.init queueSize slotSize).run m).2
    (m'.word64 ring.base = 0 ∧ m'.word64 ring.sizesAt = .ofNat queueSize ∧
      m'.word64 (ring.sizesAt + 8) = .ofNat slotSize ∧
      m'.word64 (ring.sizesAt + 16) = .ofNat (Seqlock.size slotSize)) ∧
    ∀ i < queueSize, m'.word64 (ring.lockAt slotSize i).base = 0 ∧
      m'.word64 (ring.lockAt slotSize i).dataSizeAt = .ofNat (Seqlock.frameHeaderSize + slotSize) := by
  simp only [init, Access.run_bind, Access.run_setWord64]
  generalize hm : (((m.write ring.base (Memory.bytes64 0)).write ring.sizesAt
    (Memory.bytes64 (UInt64.ofNat queueSize))).write (ring.sizesAt + 8)
      (Memory.bytes64 (UInt64.ofNat slotSize))).write (ring.sizesAt + 16)
        (Memory.bytes64 (UInt64.ofNat (Seqlock.size slotSize))) = m'
  have ha : Memory.Agree ring.base ring.slotsAt ((initSlots slotSize queueSize ring.slotsAt).run m').2 m' :=
    Access.agree_run_of_storesIn ((slotLoop_initSlots _).storesIn _ _ _) (.inl (Nat.le_refl _))
  have hb : m'.word64 ring.base = 0 ∧ m'.word64 ring.sizesAt = .ofNat queueSize ∧
      m'.word64 (ring.sizesAt + 8) = .ofNat slotSize ∧
      m'.word64 (ring.sizesAt + 16) = .ofNat (Seqlock.size slotSize) := by
    subst hm
    refine ⟨?_, ?_, ?_, Memory.word64_write_bytes64 _ _ _⟩
    · rw [Memory.word64_write_of_disjoint, Memory.word64_write_of_disjoint, Memory.word64_write_of_disjoint,
        Memory.word64_write_bytes64]
      all_goals simp only [sizesAt, cacheLine]; omega
    · rw [Memory.word64_write_of_disjoint, Memory.word64_write_of_disjoint, Memory.word64_write_bytes64]
      all_goals omega
    · rw [Memory.word64_write_of_disjoint, Memory.word64_write_bytes64]
      omega
  obtain ⟨h0, h1, h2, h3⟩ := hb
  have hs : ∀ k, k + 8 ≤ headerSize →
      ((initSlots slotSize queueSize ring.slotsAt).run m').2.word64 (ring.base + k) = m'.word64 (ring.base + k) :=
    fun k hk => ha.word64 _ (Nat.le_add_right _ _) (by simp only [slotsAt]; omega)
  exact ⟨⟨(hs 0 (by decide)).trans h0, (hs 64 (by decide)).trans h1, (hs 72 (by decide)).trans h2,
    (hs 80 (by decide)).trans h3⟩, fun i hi => words_initSlots slotSize ring.slotsAt m' hi⟩

/-- **Setting up a ring leaves its sizes**, whatever they are. -/
theorem sized_init (ring : PacketRing) {queueSize slotSize : Nat} (hp : 0 < queueSize) (hl : queueSize < 2 ^ 64)
    (hs : Seqlock.size slotSize < 2 ^ 64) (m : Memory) :
    ring.Sized queueSize slotSize ((ring.init queueSize slotSize).run m).2 := by
  obtain ⟨⟨-, h₁, h₂, h₃⟩, hslots⟩ := ring.words_init queueSize slotSize m
  exact ⟨hp, hl, hs, h₁, h₂, h₃, fun i hi => (hslots i hi).2⟩

/-- **Setting up a ring leaves its sizes, no packet, and no torn slot**, whatever the memory held before. -/
theorem setUp_init (ring : PacketRing) (g : Geometry) (m : Memory) :
    ring.SetUp g ((ring.init g.queueSize g.slotSize).run m).2 ∧
      ((ring.init g.queueSize g.slotSize).run m).2.word64 ring.base = 0 ∧
      ∀ i < g.queueSize, ¬(ring.slotAt g i).Torn ((ring.init g.queueSize g.slotSize).run m).2 := by
  obtain ⟨⟨h₀, h₁, h₂, h₃⟩, hslots⟩ := ring.words_init g.queueSize g.slotSize m
  refine ⟨⟨h₁, h₂, h₃, fun i hi => (hslots i hi).2⟩, h₀, fun i hi => ?_⟩
  have hsequence : ((ring.init g.queueSize g.slotSize).run m).2.word64 (ring.slotAt g i).base = 0 := (hslots i hi).1
  rw [Seqlock.Torn, hsequence]
  decide

/-! ## Publishing -/

/-- Between two memories only the number of packets and one slot may have changed, and not the size of that slot. -/
structure Touches (ring : PacketRing) (g : Geometry) (i : Nat) (m m' : Memory) : Prop where
  sizes : Memory.Agree (ring.base + 8) ring.slotsAt m' m
  others : ∀ j, j ≠ i →
    Memory.Agree (ring.slotAt g j).base ((ring.slotAt g j).payloadAt + g.slotSize) m' m
  dataSize : m'.word64 (ring.slotAt g i).dataSizeAt = m.word64 (ring.slotAt g i).dataSizeAt

section Touches

variable {i j : Nat} {m' : Memory}

theorem SetUp.of_touches (h : ring.SetUp g m) (t : ring.Touches g i m m') : ring.SetUp g m' := by
  have hs : ∀ k, k + 8 ≤ cacheLine → m'.word64 (ring.sizesAt + k) = m.word64 (ring.sizesAt + k) := by
    intro k hk
    simp only [cacheLine] at hk
    apply t.sizes.word64 <;> simp only [sizesAt, slotsAt, headerSize, cacheLine] <;> omega
  refine ⟨(hs 0 (by decide)).trans h.queueSize_eq, (hs 8 (by decide)).trans h.slotSize_eq,
    (hs 16 (by decide)).trans h.stride_eq, fun j hj => ?_⟩
  by_cases hji : j = i
  · subst hji
    exact t.dataSize.trans (h.dataSize_eq j hj)
  · refine ((t.others j hji).word64 _ (Nat.le_add_right _ _) ?_).trans (h.dataSize_eq j hj)
    simp only [Seqlock.payloadAt, Seqlock.frameAt, Seqlock.headerSize, cacheLine]
    omega

/-- The other slots still hold what they held. -/
theorem contents_of_touches (h : ring.SetUp g m) (t : ring.Touches g i m m') (hj : j < g.queueSize) (hji : j ≠ i) :
    (ring.slotAt g j).contents m' = (ring.slotAt g j).contents m :=
  Seqlock.contents_congr (t.others j hji)
    (Nat.le_of_eq (congrArg ((ring.slotAt g j).payloadAt + ·) ((h.of_touches t).capacityIn hj)))

theorem torn_of_touches (t : ring.Touches g i m m') (hji : j ≠ i) :
    (ring.slotAt g j).Torn m' ↔ (ring.slotAt g j).Torn m :=
  Seqlock.torn_congr (t.others j hji) (Seqlock.header_le_payload _ _)

/-- The number of packets lies in front of all that is looked at here. -/
theorem Touches.write_index (t : ring.Touches g i m m') (w : UInt64) :
    ring.Touches g i m (m'.write ring.base (Memory.bytes64 w)) := by
  have hb : ring.base + (Memory.bytes64 w).length ≤ ring.slotsAt := by
    simp only [Memory.length_bytes64, slotsAt, headerSize, cacheLine]
    omega
  have hd : ∀ j, ring.base + (Memory.bytes64 w).length ≤ (ring.slotAt g j).base :=
    fun j => Nat.le_trans hb (ring.slotsAt_le_slotAt g j)
  refine ⟨(Memory.agree_write_of_disjoint _ (.inr (Nat.le_of_eq ?_))).trans t.sizes,
    fun j hj => (Memory.agree_write_of_disjoint _ (.inr (hd j))).trans (t.others j hj), ?_⟩
  · rw [Memory.length_bytes64]
  · have hi : ring.base + (Memory.bytes64 w).length ≤ (ring.slotAt g i).dataSizeAt :=
      Nat.le_trans (hd i) (Nat.le_add_right _ _)
    rw [Memory.word64_write_of_disjoint _ (.inr hi), t.dataSize]

end Touches

section Push

variable {packet : Packet}

/-- The index of the packet that is published next. -/
def nextIndex (ring : PacketRing) (m : Memory) : UInt64 := m.word64 ring.base + 1

/-- The slot that the next packet goes to. -/
def nextPlace (ring : PacketRing) (g : Geometry) (m : Memory) : Nat := g.place (ring.nextIndex m)

theorem nextPlace_lt (ring : PacketRing) (g : Geometry) (m : Memory) : ring.nextPlace g m < g.queueSize :=
  g.place_lt _

/-- A packet that is too large for a slot is refused, and nothing is stored. -/
theorem push_of_too_large (h : ring.SetUp g m) (hp : g.slotSize < packet.data.length) :
    (ring.push packet).run m = (.error (.payloadTooLarge g.slotSize packet.data.length), m) := by
  simp [push, h.slotSize_eq, g.toNat_slotSize, hp]

theorem cut_slotAt (h : ring.SetUp g m) (hp : packet.data.length ≤ g.slotSize) {i : Nat} (hi : i < g.queueSize)
    (index : UInt64) : (ring.slotAt g i).cut (packet.frame index) m = packet.data := by
  rw [Seqlock.cut, h.capacityIn hi]
  exact List.take_of_length_le hp

/-- Publishing a packet that fits: the write of its slot, then the store of its index. -/
theorem run_push (h : ring.SetUp g m) (hp : packet.data.length ≤ g.slotSize) :
    (ring.push packet).run m = (.ok (ring.nextIndex m),
      (((ring.slotAt g (ring.nextPlace g m)).write (packet.frame (ring.nextIndex m))).run m).2.write ring.base
        (Memory.bytes64 (ring.nextIndex m))) := by
  simp [push, h.slotSize_eq, g.toNat_slotSize, Nat.not_lt.2 hp, h.run_slot, nextIndex, nextPlace, Packet.frame]

theorem storeCount_push (h : ring.SetUp g m) (hp : packet.data.length ≤ g.slotSize) :
    (ring.push packet).storeCount m = Seqlock.frameHeaderSize + packet.data.length + 3 := by
  have hc := cut_slotAt h hp (ring.nextPlace_lt g m) (ring.nextIndex m)
  have hw := Seqlock.storeCount_write (ring.slotAt g (ring.nextPlace g m)) (packet.frame (ring.nextIndex m)) m
  rw [hc] at hw
  simp only [nextPlace, nextIndex, Packet.frame] at hw
  simp [push, h.slotSize_eq, g.toNat_slotSize, Nat.not_lt.2 hp, h.run_slot, storeCount_slot, hw]

/-- Until its last store, publishing does nothing but write the slot. -/
theorem crash_push_of_lt (h : ring.SetUp g m) (hp : packet.data.length ≤ g.slotSize) {n : Nat}
    (hn : n < Seqlock.frameHeaderSize + packet.data.length + 3) :
    (ring.push packet).crash n m =
      ((ring.slotAt g (ring.nextPlace g m)).write (packet.frame (ring.nextIndex m))).crash n m := by
  have hc := cut_slotAt h hp (ring.nextPlace_lt g m) (ring.nextIndex m)
  have hw := Seqlock.storeCount_write (ring.slotAt g (ring.nextPlace g m)) (packet.frame (ring.nextIndex m)) m
  rw [hc] at hw
  have hs : (ring.push packet).crash n m =
      ((ring.slotAt g (ring.nextPlace g m)).write (packet.frame (ring.nextIndex m)) >>= fun _ =>
        Access.setWord64 ring.base (ring.nextIndex m) >>= fun _ =>
        pure (Except.ok (ring.nextIndex m) : Except Error UInt64)).crash n m := by
    simp [push, Access.crash_bind, h.slotSize_eq, g.toNat_slotSize, Nat.not_lt.2 hp, h.run_slot, storeCount_slot,
      nextIndex, nextPlace, Packet.frame]
  rw [hs]
  rcases Nat.lt_or_ge n (Seqlock.frameHeaderSize + packet.data.length + 2) with hn' | hn'
  · rw [Access.crash_bind_of_lt _ (by rwa [hw])]
  · rw [Access.crash_bind_of_le _ (by rwa [hw]), hw, show n - (Seqlock.frameHeaderSize + packet.data.length + 2) = 0 by
      omega, Access.crash_zero, Access.crash_of_le _ _ (by rwa [hw])]

theorem crash_push_of_le (h : ring.SetUp g m) (hp : packet.data.length ≤ g.slotSize) {n : Nat}
    (hn : Seqlock.frameHeaderSize + packet.data.length + 3 ≤ n) :
    (ring.push packet).crash n m = ((ring.push packet).run m).2 :=
  Access.crash_of_le _ _ (by rwa [storeCount_push h hp])

/-- The write of a slot stays inside the slot. -/
theorem write_slotAt_storesIn (h : ring.SetUp g m) (hp : packet.data.length ≤ g.slotSize) {i : Nat}
    (hi : i < g.queueSize) (index : UInt64) :
    ((ring.slotAt g i).write (packet.frame index)).StoresIn (ring.slotAt g i).base
      ((ring.slotAt g i).payloadAt + g.slotSize) m := by
  apply Seqlock.write_storesIn
  rw [cut_slotAt h hp hi]
  omega

/-- However early it stops, the write of a slot touches no other slot. -/
theorem touches_crash_write (h : ring.SetUp g m) (hp : packet.data.length ≤ g.slotSize) {i : Nat}
    (hi : i < g.queueSize) (index : UInt64) (n : Nat) :
    ring.Touches g i m (((ring.slotAt g i).write (packet.frame index)).crash n m) := by
  have hin := write_slotAt_storesIn h hp hi index
  refine ⟨Access.agree_crash_of_storesIn hin n (.inl (ring.slotsAt_le_slotAt g i)), fun j hj => ?_,
    Seqlock.dataSize_crash_write _ _ n⟩
  rcases Nat.lt_or_gt_of_ne hj with hlt | hgt
  · exact Access.agree_crash_of_storesIn hin n (.inl (ring.slotAt_le g hlt))
  · exact Access.agree_crash_of_storesIn hin n (.inr (ring.slotAt_le g hgt))

/-- However early it stops, publishing touches only the slot of its packet. -/
theorem touches_crash_push (h : ring.SetUp g m) (hp : packet.data.length ≤ g.slotSize) (n : Nat) :
    ring.Touches g (ring.nextPlace g m) m ((ring.push packet).crash n m) := by
  have hi := ring.nextPlace_lt g m
  rcases Nat.lt_or_ge n (Seqlock.frameHeaderSize + packet.data.length + 3) with hn | hn
  · rw [crash_push_of_lt h hp hn]
    exact touches_crash_write h hp hi _ n
  · rw [crash_push_of_le h hp hn, run_push h hp]
    have ht := touches_crash_write h hp hi (ring.nextIndex m) (Seqlock.frameHeaderSize + packet.data.length + 2)
    rw [Seqlock.crash_write_of_le _ _ (Nat.le_of_eq (by rw [cut_slotAt h hp hi]))] at ht
    exact ht.write_index _

theorem touches_push (h : ring.SetUp g m) (hp : packet.data.length ≤ g.slotSize) :
    ring.Touches g (ring.nextPlace g m) m ((ring.push packet).run m).2 :=
  crash_push_of_le h hp (Nat.le_refl _) ▸ touches_crash_push h hp _

/-! ## The slot of a packet -/

/-- The number of packets is stored last. -/
theorem writeIndex_crash_push_of_lt (h : ring.SetUp g m) (hp : packet.data.length ≤ g.slotSize) {n : Nat}
    (hn : n < Seqlock.frameHeaderSize + packet.data.length + 3) :
    ((ring.push packet).crash n m).word64 ring.base = m.word64 ring.base := by
  have hin := write_slotAt_storesIn h hp (ring.nextPlace_lt g m) (ring.nextIndex m)
  have ha : Memory.Agree ring.base ring.slotsAt _ m :=
    Access.agree_crash_of_storesIn hin n (.inl (ring.slotsAt_le_slotAt g _))
  rw [crash_push_of_lt h hp hn, ha.word64 ring.base (Nat.le_refl _)]
  simp only [slotsAt, headerSize, cacheLine]
  omega

theorem writeIndex_push (h : ring.SetUp g m) (hp : packet.data.length ≤ g.slotSize) :
    ((ring.push packet).run m).2.word64 ring.base = ring.nextIndex m := by
  rw [run_push h hp, Memory.word64_write_bytes64]

/-- The store of an index goes in front of the slots. -/
theorem agree_slot_write_index (i : Nat) (m : Memory) (w : UInt64) :
    Memory.Agree (ring.slotAt g i).base ((ring.slotAt g i).payloadAt + g.slotSize)
      (m.write ring.base (Memory.bytes64 w)) m := by
  refine Memory.agree_write_of_disjoint _ (.inr (Nat.le_trans ?_ (ring.slotsAt_le_slotAt g i)))
  simp only [Memory.length_bytes64, slotsAt, headerSize, cacheLine]
  omega

theorem torn_write_index_iff (i : Nat) (m : Memory) (w : UInt64) :
    (ring.slotAt g i).Torn (m.write ring.base (Memory.bytes64 w)) ↔ (ring.slotAt g i).Torn m :=
  Seqlock.torn_congr (agree_slot_write_index i m w) (Seqlock.header_le_payload _ _)

/-- Publishing keeps the parity of the sequence number of the slot. -/
theorem torn_push_iff (h : ring.SetUp g m) (hp : packet.data.length ≤ g.slotSize) (i : Nat) :
    (ring.slotAt g i).Torn ((ring.push packet).run m).2 ↔ (ring.slotAt g i).Torn m := by
  by_cases hi : i = ring.nextPlace g m
  · rw [hi, run_push h hp]
    exact (torn_write_index_iff _ _ _).trans (Seqlock.torn_run_write_iff _ _)
  · exact torn_of_touches (touches_push h hp) hi

/-- **A push that dies between its two stores of the sequence number of its slot turns the parity around.** -/
theorem torn_crash_push_iff (h : ring.SetUp g m) (hp : packet.data.length ≤ g.slotSize) (i n : Nat) :
    (ring.slotAt g i).Torn ((ring.push packet).crash n m) ↔
      if i = ring.nextPlace g m ∧ 0 < n ∧ n < Seqlock.frameHeaderSize + packet.data.length + 2
        then ¬(ring.slotAt g i).Torn m else (ring.slotAt g i).Torn m := by
  by_cases hi : i = ring.nextPlace g m
  · simp only [hi, true_and]
    rcases Nat.lt_or_ge n (Seqlock.frameHeaderSize + packet.data.length + 3) with hn | hn
    · rw [crash_push_of_lt h hp hn, Seqlock.torn_crash_write_iff, cut_slotAt h hp (ring.nextPlace_lt g m)]
    · rw [crash_push_of_le h hp hn, torn_push_iff h hp, if_neg (by omega)]
  · rw [torn_of_touches (touches_crash_push h hp n) hi, if_neg (fun hc => hi hc.1)]

/-- **After publishing, the slot holds the packet, unless it was torn before.** -/
theorem contents_push (h : ring.SetUp g m) (hp : packet.data.length ≤ g.slotSize) :
    (ring.slotAt g (ring.nextPlace g m)).contents ((ring.push packet).run m).2 =
      if (ring.slotAt g (ring.nextPlace g m)).Torn m then none else some (packet.frame (ring.nextIndex m)) := by
  have hi := ring.nextPlace_lt g m
  have hc := (h.of_touches (touches_push h hp)).capacityIn hi
  have hs := g.slotSize_lt
  simp only [run_push h hp] at hc ⊢
  rw [Seqlock.contents_congr (agree_slot_write_index _ _ _) (Nat.le_of_eq (congrArg _ hc)),
    Seqlock.contents_run_write _ _ (by rw [h.capacityIn hi]; omega), cut_slotAt h hp hi]
  rfl

end Push

end PacketRing

end MediaChannels
