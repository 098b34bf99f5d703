import MediaChannels.Channel.Basic

/-!
# Sizes and offsets that fit

The layout of a segment is computed from sizes that come out of memory. Some sums on the way are checked and some are
not: those for the lanes, for the size of the whole segment, and for the offsets of a channel. Within the limits that
`Sizes.Valid` sets, all of them fit in 64 bits with room to spare.

* `size_lane_le`, `size_ring_le`, `stride_le`: how much room a valid segment can take.
* `of?_of_valid`: the checked sums never fail for valid sizes; `ringSize?_of_valid`: those for the ring come to what it
  takes.
* `Layout.ofExact?`, `totalSizeExact?`, `Channel.ofLayoutExact?`, and `sizeExact?` of lanes, locks and rings: the same
  computations, which fail at the first sum or product that does not fit, checked or not; `layoutOfExact?_eq`,
  `totalSizeExact?_eq`, `channelOfLayoutExact?_eq`, `ringSizeExact?_eq`: for valid sizes none does.
-/

namespace MediaChannels

variable {sizes : Sizes}

theorem Layout.totalSize_eq (l : Layout) : l.totalSize = 128 + 4 * l.stride := by
  rw [totalSize, Nat.mul_comm]
  rfl

namespace Sizes.Valid

/-! ## How much room a valid segment takes -/

theorem size_lane_le (h : sizes.Valid) : Lane.size sizes.eventSlots ≤ 1 <<< 21 := by
  have hslots := h.eventSlots_le
  have hlt := alignUp_lt (Lane.headerSize + sizes.eventSlots * Lane.slotSize)
  simp only [Lane.size, Lane.headerSize, Lane.slotSize, cacheLine, Sizes.maxSlots] at *
  omega

theorem size_slot_le (h : sizes.Valid) : Seqlock.size sizes.slotSize ≤ 1 <<< 33 := by
  have hslot := h.slotSize_le
  have hlt := alignUp_lt (Seqlock.headerSize + Seqlock.frameHeaderSize + sizes.slotSize)
  simp only [Seqlock.size, Seqlock.headerSize, Seqlock.frameHeaderSize, cacheLine, Sizes.maxSlotSize] at *
  omega

theorem slots_le (h : sizes.Valid) : sizes.queueSize * Seqlock.size sizes.slotSize ≤ 1 <<< 49 :=
  calc
    sizes.queueSize * Seqlock.size sizes.slotSize ≤ Sizes.maxSlots * 1 <<< 33 :=
      Nat.mul_le_mul h.queueSize_le h.size_slot_le
    _ = 1 <<< 49 := by decide

theorem size_ring_le (h : sizes.Valid) : PacketRing.size sizes.queueSize sizes.slotSize ≤ 1 <<< 50 := by
  have hslots := h.slots_le
  simp only [PacketRing.size, PacketRing.headerSize, cacheLine]
  omega

theorem packets_le (h : sizes.Valid) : (Layout.of sizes).packets ≤ 1 <<< 24 := by
  have hlane := h.size_lane_le
  have hdisplay : Layout.metadataSize + Seqlock.size Layout.displayCapacity = 448 := rfl
  have hkinds : ControlKind.all.length = 4 := rfl
  simp only [Layout.of, EventLanes.size, hdisplay, hkinds]
  omega

theorem stride_le (h : sizes.Valid) : (Layout.of sizes).stride ≤ 1 <<< 51 := by
  have hpackets := h.packets_le
  have hring := h.size_ring_le
  have hlt := alignUp_lt ((Layout.of sizes).packets + PacketRing.size sizes.queueSize sizes.slotSize)
  have hstride : (Layout.of sizes).stride =
      alignUp ((Layout.of sizes).packets + PacketRing.size sizes.queueSize sizes.slotSize) := rfl
  simp only [cacheLine] at hlt
  omega

theorem totalSize_lt (h : sizes.Valid) : (Layout.of sizes).totalSize < 1 <<< 64 := by
  have hstride := h.stride_le
  rw [Layout.totalSize_eq]
  omega

end Sizes.Valid

/-! ## The checked sums -/

namespace Layout

theorem word?_of_lt {n : Nat} (h : n < 1 <<< 64) : word? n = some n := if_pos h

theorem word?_bind {α : Type} {n : Nat} (h : n < 1 <<< 64) (f : Nat → Option α) : (word? n).bind f = f n := by
  rw [word?_of_lt h, Option.bind_some]

theorem alignUp?_bind {α : Type} {n : Nat} (h : n + (cacheLine - 1) < 1 <<< 64) (f : Nat → Option α) :
    (alignUp? n).bind f = f (alignUp n) := by
  rw [alignUp?, word?_of_lt h]
  rfl

/-- The bytes of a ring as the layout sums them up, if every sum on the way fits. -/
def ringSize? (sizes : Sizes) : Option Nat := do
  let slot ← word? (sizes.slotSize + (Seqlock.headerSize + Seqlock.frameHeaderSize))
  let slotStride ← alignUp? slot
  let slots ← word? (slotStride * sizes.queueSize)
  word? (slots + PacketRing.headerSize)

/-- The layout leaves that room for the ring, behind the lanes. -/
theorem of?_eq_ringSize? (sizes : Sizes) :
    of? sizes = do
      let display := metadataSize
      let events := display + Seqlock.size displayCapacity
      let packets ← word? (events + EventLanes.size sizes.eventSlots)
      let ring ← ringSize? sizes
      let channel ← word? (packets + ring)
      let stride ← alignUp? channel
      let channels ← word? (stride * ChannelKind.all.length)
      let _ ← word? (channels + channelsAt)
      return { display, events, packets, stride } := by
  simp only [of?, ringSize?, bind_assoc]

/-- It is the room that the ring takes. -/
theorem ringSize?_of_valid (h : sizes.Valid) :
    ringSize? sizes = some (PacketRing.size sizes.queueSize sizes.slotSize) := by
  have hslotSize : sizes.slotSize ≤ 1 <<< 32 - 1 := h.slotSize_le
  have hslots := h.slots_le
  have hring := h.size_ring_le
  have hline : cacheLine = 64 := rfl
  have hheader : Seqlock.headerSize + Seqlock.frameHeaderSize = 144 := rfl
  -- What the sums come to, in the order in which they are taken.
  have hslotStride : alignUp (sizes.slotSize + (Seqlock.headerSize + Seqlock.frameHeaderSize)) =
      Seqlock.size sizes.slotSize := by rw [Seqlock.size, Nat.add_comm]
  have hslotsAt : Seqlock.size sizes.slotSize * sizes.queueSize = sizes.queueSize * Seqlock.size sizes.slotSize :=
    Nat.mul_comm _ _
  have hringSize : sizes.queueSize * Seqlock.size sizes.slotSize + PacketRing.headerSize =
      PacketRing.size sizes.queueSize sizes.slotSize := Nat.add_comm _ _
  simp (disch := omega) only [ringSize?, Option.bind_eq_bind, word?_bind, alignUp?_bind, hslotStride, hslotsAt,
    hringSize]
  exact word?_of_lt (by omega)

/-- **Valid sizes have a layout**: no checked sum fails. -/
theorem of?_of_valid (h : sizes.Valid) : of? sizes = some (of sizes) := by
  have hpackets := h.packets_le
  have hring := h.size_ring_le
  have hstride := h.stride_le
  have hline : cacheLine = 64 := rfl
  have hchannels : channelsAt = 128 := rfl
  have hkinds : ChannelKind.all.length = 4 := rfl
  have hpacketsAt : metadataSize + Seqlock.size displayCapacity + EventLanes.size sizes.eventSlots =
      (of sizes).packets := rfl
  have hstrideAt : alignUp ((of sizes).packets + PacketRing.size sizes.queueSize sizes.slotSize) =
      (of sizes).stride := rfl
  rw [of?_eq_ringSize?]
  simp (disch := omega) only [Option.bind_eq_bind, word?_bind, alignUp?_bind, ringSize?_of_valid h, Option.bind_some,
    hkinds, hpacketsAt, hstrideAt]
  rfl

end Layout

/-! ## The sums that are not checked -/

/-- `alignUp`, if the sum fits from which one is taken off last. -/
def Layout.alignUpExact? (n : Nat) : Option Nat :=
  (Layout.word? (n + cacheLine)).map fun m => (m - 1) / cacheLine * cacheLine

theorem Layout.alignUpExact?_of_lt {n : Nat} (h : n + cacheLine < 1 <<< 64) : alignUpExact? n = some (alignUp n) := by
  have hround : n + cacheLine - 1 = n + (cacheLine - 1) := rfl
  rw [alignUpExact?, word?_of_lt h, Option.map_some, hround, alignUp]

/-- The bytes of a lane, if every sum and product on the way fits. -/
def Lane.sizeExact? (slots : Nat) : Option Nat := do
  let bytes ← Layout.word? (slots * slotSize)
  let sum ← Layout.word? (headerSize + bytes)
  Layout.alignUpExact? sum

/-- The bytes of the lanes of a channel, if every sum and product on the way fits. -/
def EventLanes.sizeExact? (slots : Nat) : Option Nat := do
  let lane ← Lane.sizeExact? slots
  Layout.word? (lane * ControlKind.all.length)

/-- The bytes of a lock, if every sum on the way fits. -/
def Seqlock.sizeExact? (capacity : Nat) : Option Nat := do
  let sum ← Layout.word? (headerSize + frameHeaderSize + capacity)
  Layout.alignUpExact? sum

/-- The bytes of a ring, if every sum and product on the way fits. -/
def PacketRing.sizeExact? (queueSize slotSize : Nat) : Option Nat := do
  let slot ← Seqlock.sizeExact? slotSize
  let slots ← Layout.word? (queueSize * slot)
  Layout.word? (headerSize + slots)

/-- The layout for sizes, if every sum and product on the way fits, also those for the lanes. -/
def Layout.ofExact? (sizes : Sizes) : Option Layout := do
  let lane ← Lane.sizeExact? sizes.eventSlots
  let _ ← word? (lane * ControlKind.all.length)
  of? sizes

/-- The bytes of a segment, if they fit. -/
def Layout.totalSizeExact? (l : Layout) : Option Nat := do
  let channels ← word? (l.stride * ChannelKind.all.length)
  word? (channelsAt + channels)

/-- The channel of a kind, if the offsets of its blocks and the size of its lanes fit. -/
def Channel.ofLayoutExact? (kind : ChannelKind) (layout : Layout) (eventSlots : Nat) : Option Channel := do
  let offset ← Layout.word? (kind.index * layout.stride)
  let base ← Layout.word? (Layout.channelsAt + offset)
  let _ ← Layout.word? (base + layout.display)
  let _ ← Layout.word? (base + layout.events)
  let _ ← Lane.sizeExact? eventSlots
  let _ ← Layout.word? (base + layout.packets)
  return { kind, base, layout, eventSlots }

namespace Sizes.Valid

/-- The size of a lane is exact. -/
theorem laneSizeExact?_eq (h : sizes.Valid) : Lane.sizeExact? sizes.eventSlots = some (Lane.size sizes.eventSlots) := by
  have hslots : sizes.eventSlots ≤ 1 <<< 16 := h.eventSlots_le
  have hline : cacheLine = 64 := rfl
  have hslot : Lane.slotSize = 16 := rfl
  have hheader : Lane.headerSize = 192 := rfl
  simp (disch := omega) only [Lane.sizeExact?, hslot, Option.bind_eq_bind, Layout.word?_bind]
  exact Layout.alignUpExact?_of_lt (by omega)

/-- So is that of all lanes of a channel. -/
theorem lanesSizeExact?_eq (h : sizes.Valid) :
    EventLanes.sizeExact? sizes.eventSlots = some (EventLanes.size sizes.eventSlots) := by
  have hlane := h.size_lane_le
  have hkinds : ControlKind.all.length = 4 := rfl
  rw [EventLanes.sizeExact?, h.laneSizeExact?_eq, Option.bind_eq_bind, Option.bind_some, hkinds,
    Layout.word?_of_lt (by omega), EventLanes.size, hkinds, Nat.mul_comm]

/-- So is that of a slot of the ring. -/
theorem slotSizeExact?_eq (h : sizes.Valid) :
    Seqlock.sizeExact? sizes.slotSize = some (Seqlock.size sizes.slotSize) := by
  have hslotSize : sizes.slotSize ≤ 1 <<< 32 - 1 := h.slotSize_le
  have hline : cacheLine = 64 := rfl
  have hheader : Seqlock.headerSize + Seqlock.frameHeaderSize = 144 := rfl
  rw [Seqlock.sizeExact?, Option.bind_eq_bind, Layout.word?_bind (by omega)]
  exact Layout.alignUpExact?_of_lt (by omega)

/-- So is that of the ring. -/
theorem ringSizeExact?_eq (h : sizes.Valid) :
    PacketRing.sizeExact? sizes.queueSize sizes.slotSize =
      some (PacketRing.size sizes.queueSize sizes.slotSize) := by
  have hslots := h.slots_le
  have hheader : PacketRing.headerSize = 128 := rfl
  simp only [PacketRing.sizeExact?, h.slotSizeExact?_eq, Option.bind_eq_bind, Option.bind_some]
  rw [Layout.word?_bind (by omega), Layout.word?_of_lt (by omega), PacketRing.size]

/-- **The layout of valid sizes is exact**: no sum and no product on the way overflows. -/
theorem layoutOfExact?_eq (h : sizes.Valid) : Layout.ofExact? sizes = some (.of sizes) := by
  have hlane := h.size_lane_le
  have hlanes : Lane.size sizes.eventSlots * ControlKind.all.length < 1 <<< 64 := by
    rw [show ControlKind.all.length = 4 from rfl]
    omega
  simp only [Layout.ofExact?, Option.bind_eq_bind, h.laneSizeExact?_eq, Layout.word?_of_lt hlanes, Option.bind_some,
    Layout.of?_of_valid h]

/-- The size of the segment is exact. -/
theorem totalSizeExact?_eq (h : sizes.Valid) :
    (Layout.of sizes).totalSizeExact? = some (Layout.of sizes).totalSize := by
  have hstride := h.stride_le
  have hkinds : ChannelKind.all.length = 4 := rfl
  have hchannels : Layout.channelsAt = 128 := rfl
  rw [Layout.totalSizeExact?, hkinds, Option.bind_eq_bind, Layout.word?_bind (by omega),
    Layout.word?_of_lt (by omega)]
  rfl

/-- So are the offsets of every channel. -/
theorem channelOfLayoutExact?_eq (h : sizes.Valid) (kind : ChannelKind) :
    Channel.ofLayoutExact? kind (.of sizes) sizes.eventSlots = some (.ofLayout kind (.of sizes) sizes.eventSlots) := by
  have hstride := h.stride_le
  have hpackets := h.packets_le
  have hkind : kind.index * (Layout.of sizes).stride ≤ 3 * (Layout.of sizes).stride :=
    Nat.mul_le_mul_right _ (Nat.le_of_lt_succ kind.index_lt)
  have hchannels : Layout.channelsAt = 128 := rfl
  obtain ⟨hevents, hlanes, -⟩ := Layout.blocks_le sizes
  simp (disch := omega) only [Channel.ofLayoutExact?, Option.bind_eq_bind, Layout.word?_bind, h.laneSizeExact?_eq,
    Option.bind_some]
  rfl

end Sizes.Valid

end MediaChannels
