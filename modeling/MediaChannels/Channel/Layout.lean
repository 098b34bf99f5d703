import MediaChannels.Channel.Kind
import MediaChannels.Channel.Sizes
import MediaChannels.EventLanes
import MediaChannels.PacketRing

/-!
# Layout of a segment

A segment is a header of two cache lines and four channels of equal size. A channel holds, in this order, its metadata,
the lock of its display selector, its event lanes and its packet ring. All offsets are computed from the three sizes, in
64 bits, and a sum that does not fit is found out.

* `of?_eq_some`: when every sum fits, the layout is the plain one.
* `blocks_le`: inside a channel the blocks follow one another.
-/

namespace MediaChannels

/-- Offsets inside a channel, and the distance of two channels. -/
structure Layout where
  display : Nat
  events : Nat
  packets : Nat
  stride : Nat
  deriving DecidableEq, Repr

namespace Layout

/-- Bytes of the segment header, which is where the first channel starts. -/
def channelsAt : Nat := 2 * cacheLine

/-- Bytes of the metadata of a channel. -/
def metadataSize : Nat := 2 * cacheLine

/-- The longest display selector, in bytes. -/
def displayCapacity : Nat := 128

/-- The layout of unlimited sizes. -/
def of (sizes : Sizes) : Layout :=
  let display := metadataSize
  let events := display + Seqlock.size displayCapacity
  let packets := events + EventLanes.size sizes.eventSlots
  { display, events, packets
    stride := alignUp (packets + PacketRing.size sizes.queueSize sizes.slotSize) }

/-- Bytes of a segment. -/
def totalSize (l : Layout) : Nat := channelsAt + l.stride * ChannelKind.all.length

/-- A number, if it fits in 64 bits. -/
def word? (n : Nat) : Option Nat := if n < 1 <<< 64 then some n else none

/-- `alignUp`, if its sum fits in 64 bits. -/
def alignUp? (n : Nat) : Option Nat := (word? (n + (cacheLine - 1))).map fun m => m / cacheLine * cacheLine

/-- The layout for sizes, if every sum on the way fits in 64 bits. -/
def of? (sizes : Sizes) : Option Layout := do
  let display := metadataSize
  let events := display + Seqlock.size displayCapacity
  let packets ← word? (events + EventLanes.size sizes.eventSlots)
  let slot ← word? (sizes.slotSize + (Seqlock.headerSize + Seqlock.frameHeaderSize))
  let slotStride ← alignUp? slot
  let slots ← word? (slotStride * sizes.queueSize)
  let ring ← word? (slots + PacketRing.headerSize)
  let channel ← word? (packets + ring)
  let stride ← alignUp? channel
  let channels ← word? (stride * ChannelKind.all.length)
  let _ ← word? (channels + channelsAt)
  return { display, events, packets, stride }

theorem word?_eq_some {n m : Nat} (h : word? n = some m) : m = n := by
  unfold word? at h
  split at h
  · cases h; rfl
  · cases h

theorem alignUp?_eq_some {n m : Nat} (h : alignUp? n = some m) : m = alignUp n := by
  obtain ⟨k, hk, rfl⟩ := Option.map_eq_some_iff.1 h
  rw [word?_eq_some hk, alignUp]

/-- When every sum fits, the layout is the plain one. -/
theorem of?_eq_some {sizes : Sizes} {l : Layout} (h : of? sizes = some l) : l = of sizes := by
  simp only [of?, Option.bind_eq_bind, Option.bind_eq_some_iff, Option.pure_def, Option.some.injEq] at h
  obtain ⟨packets, h₁, slot, h₂, slotStride, h₃, slots, h₄, ring, h₅, channel, h₆, stride, h₇, channels, h₈, total, h₉,
    rfl⟩ := h
  have h₁ := word?_eq_some h₁
  have h₂ := word?_eq_some h₂
  have h₃ := alignUp?_eq_some h₃
  have h₄ := word?_eq_some h₄
  have h₅ := word?_eq_some h₅
  have h₆ := word?_eq_some h₆
  have h₇ := alignUp?_eq_some h₇
  have hs : slotStride = Seqlock.size sizes.slotSize := by rw [h₃, h₂, Seqlock.size, Nat.add_comm]
  have hr : ring = PacketRing.size sizes.queueSize sizes.slotSize := by
    rw [h₅, h₄, hs, PacketRing.size, Nat.add_comm, Nat.mul_comm]
  simp only [of, Layout.mk.injEq, true_and]
  exact ⟨h₁, by rw [h₇, h₆, hr, h₁]⟩

/-- Inside a channel the blocks follow one another. -/
theorem blocks_le (sizes : Sizes) :
    (of sizes).display + Seqlock.size displayCapacity ≤ (of sizes).events ∧
      (of sizes).events + EventLanes.size sizes.eventSlots ≤ (of sizes).packets ∧
      (of sizes).packets + PacketRing.size sizes.queueSize sizes.slotSize ≤ (of sizes).stride :=
  ⟨Nat.le_refl _, Nat.le_refl _, le_alignUp _⟩

end Layout

end MediaChannels
