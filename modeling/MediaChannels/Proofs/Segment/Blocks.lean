import Mathlib.Logic.ExistsUnique
import MediaChannels.Proofs.Channel.Layout
import MediaChannels.Proofs.Memory.Tiling
import MediaChannels.Proofs.Segment.Created
import MediaChannels.Proofs.SharedMemory.FailedCreation

/-!
# The blocks of a segment

A segment consists of its header and, for each of its channels, of the metadata, the display selector, one lane for each
kind of event, the header of the packet ring and the slots of the ring. Every block has the cache lines that it needs,
and the blocks follow one another without a gap.

* `ChannelBlock`, `SegmentBlock`: the blocks, with where they start and how many bytes they take.
* `SegmentBlock.startExact?`: where a block starts, with every sum and product held to 64 bits.
* `SegmentBlock.tiles_all`: rounded up to whole cache lines, the blocks tile the segment.
* `Layout.tiled_of_validate`: sizes that are found valid have a layout, whose sums and products are exact and whose
  blocks are tight and do not overlap.
-/

namespace MediaChannels

/-- The blocks of a channel. -/
inductive ChannelBlock (sizes : Sizes) where
  | metadata
  | display
  | lane (kind : ControlKind)
  | ringHeader
  | slot (i : Fin sizes.queueSize)
  deriving DecidableEq, Repr

/-- The blocks of a segment. -/
inductive SegmentBlock (sizes : Sizes) where
  | header
  | channel (kind : ChannelKind) (block : ChannelBlock sizes)
  deriving DecidableEq, Repr

variable {sizes : Sizes}

/-! ## Channels -/

namespace ChannelBlock

/-- Where a block of a channel starts: where the channel looks for it. -/
def start (kind : ChannelKind) : ChannelBlock sizes → Nat
  | metadata => (sizes.channel kind).base
  | display => (sizes.channel kind).displayLock.base
  | lane k => ((sizes.channel kind).events.lane k).base
  | ringHeader => (sizes.channel kind).packets.base
  | slot i => ((sizes.channel kind).packets.lockAt sizes.slotSize i).base

/-- The bytes that a block of a channel takes. -/
def size : ChannelBlock sizes → Nat
  | metadata => Layout.metadataSize
  | display => Seqlock.headerSize + Seqlock.frameHeaderSize + Layout.displayCapacity
  | lane _ => Lane.headerSize + sizes.eventSlots * Lane.slotSize
  | ringHeader => PacketRing.headerSize
  | slot _ => Seqlock.headerSize + Seqlock.frameHeaderSize + sizes.slotSize

/-- The cache lines that a block of a channel has. -/
def room (block : ChannelBlock sizes) : Nat := alignUp block.size

/-- Where a block of a channel starts; none as soon as a sum or a product on the way is no word. -/
def startExact? (kind : ChannelKind) (block : ChannelBlock sizes) : Option Nat := do
  let channel ← Channel.ofLayoutExact? kind (.of sizes) sizes.eventSlots
  match block with
  | metadata => return channel.base
  | display => return channel.displayLock.base
  | lane k =>
    let lane ← Lane.sizeExact? sizes.eventSlots
    let offset ← Layout.word? (k.lane * lane)
    Layout.word? (channel.events.base + offset)
  | ringHeader => return channel.packets.base
  | slot i =>
    let slots ← Layout.word? (channel.packets.base + PacketRing.headerSize)
    let slot ← Seqlock.sizeExact? sizes.slotSize
    let offset ← Layout.word? (i * slot)
    Layout.word? (slots + offset)

/-- The blocks of a channel in their order. -/
def all (sizes : Sizes) : List (ChannelBlock sizes) :=
  [metadata] ++ [display] ++ ControlKind.all.map lane ++ [ringHeader] ++ (List.finRange sizes.queueSize).map slot

theorem mem_all (block : ChannelBlock sizes) : block ∈ all sizes := by
  cases block with
  | lane k => simp [all, ControlKind.mem_all]
  | _ => simp [all]

end ChannelBlock

/-! ## Segments -/

namespace SegmentBlock

/-- Where a block starts. -/
def start : SegmentBlock sizes → Nat
  | header => 0
  | channel kind block => block.start kind

/-- The bytes that a block takes. -/
def size : SegmentBlock sizes → Nat
  | header => Segment.headerSize
  | channel _ block => block.size

/-- The cache lines that a block has. -/
def room (block : SegmentBlock sizes) : Nat := alignUp block.size

/-- Where a block ends. -/
def stop (block : SegmentBlock sizes) : Nat := block.start + block.size

/-- Where a block starts; none as soon as a sum or a product on the way is no word. -/
def startExact? : SegmentBlock sizes → Option Nat
  | header => some 0
  | channel kind block => block.startExact? kind

/-- The blocks of a segment in their order. -/
def all (sizes : Sizes) : List (SegmentBlock sizes) :=
  header :: ChannelKind.all.flatMap fun kind => (ChannelBlock.all sizes).map (channel kind)

theorem mem_all (block : SegmentBlock sizes) : block ∈ all sizes := by
  cases block with
  | header => exact List.mem_cons_self
  | channel kind block =>
    refine List.mem_cons_of_mem _ (List.mem_flatMap.2 ⟨kind, kind.mem_all, ?_⟩)
    exact List.mem_map_of_mem block.mem_all

end SegmentBlock

/-! ## Whole cache lines -/

namespace Layout

/-- All blocks of a channel start with a cache line. -/
theorem dvd_offsets (sizes : Sizes) :
    cacheLine ∣ (of sizes).display ∧ cacheLine ∣ (of sizes).events ∧ cacheLine ∣ (of sizes).packets ∧
      cacheLine ∣ (of sizes).stride := by
  have hevents : cacheLine ∣ (of sizes).events := by
    show cacheLine ∣ 448
    decide
  refine ⟨?_, hevents, ?_, dvd_alignUp _⟩
  · show cacheLine ∣ 128
    decide
  · exact Nat.dvd_add hevents (Nat.dvd_mul_left_of_dvd (dvd_alignUp _) _)

/-- **The ring is the end of its channel**: nothing is added to round it up. -/
theorem stride_eq (sizes : Sizes) :
    (of sizes).stride = (of sizes).packets + PacketRing.size sizes.queueSize sizes.slotSize := by
  apply alignUp_of_dvd
  refine Nat.dvd_add (dvd_offsets sizes).2.2.1 (Nat.dvd_add (by decide) ?_)
  exact Nat.dvd_mul_left_of_dvd (dvd_alignUp _) _

end Layout

/-! ## One block after the other -/

namespace ChannelBlock

/-- Metadata fill their cache lines. -/
theorem room_metadata : (metadata : ChannelBlock sizes).room = Layout.metadataSize :=
  alignUp_of_dvd (Nat.dvd_mul_left cacheLine 2)

/-- So does the header of a ring. -/
theorem room_ringHeader : (ringHeader : ChannelBlock sizes).room = PacketRing.headerSize :=
  alignUp_of_dvd (Nat.dvd_mul_left cacheLine 2)

/-- The lanes of a channel follow one another. -/
theorem tiles_lanes (sizes : Sizes) (kind : ChannelKind) :
    Tiles (start kind) room (sizes.channel kind).events.base (ControlKind.all.map lane : List (ChannelBlock sizes))
      (sizes.channel kind).packets.base := by
  have hend : (sizes.channel kind).packets.base =
      (sizes.channel kind).events.base + ControlKind.all.length * Lane.size sizes.eventSlots :=
    (Nat.add_assoc _ _ _).symm
  rw [hend]
  refine Tiles.map (tiles_of_stride (fun i h => ?_) fun _ _ => rfl)
  show (sizes.channel kind).events.base + ControlKind.all[i].lane * Lane.size sizes.eventSlots = _
  rw [ControlKind.lane_getElem]

/-- So do the slots of its ring. -/
theorem tiles_slots (sizes : Sizes) (kind : ChannelKind) :
    Tiles (start kind) room (sizes.channel kind).packets.slotsAt ((List.finRange sizes.queueSize).map slot)
      ((sizes.channel kind).base + (Layout.of sizes).stride) := by
  have hend : (sizes.channel kind).base + (Layout.of sizes).stride =
      (sizes.channel kind).packets.slotsAt +
        (List.finRange sizes.queueSize).length * Seqlock.size sizes.slotSize := by
    rw [Layout.stride_eq, List.length_finRange, PacketRing.size]
    show _ = (sizes.channel kind).base + (Layout.of sizes).packets + PacketRing.headerSize + _
    omega
  rw [hend]
  refine Tiles.map (tiles_of_stride (fun i h => ?_) fun _ _ => rfl)
  rw [List.getElem_finRange]
  rfl

/-- **The blocks of a channel tile it.** -/
theorem tiles_all (sizes : Sizes) (kind : ChannelKind) :
    Tiles (start kind) room (sizes.channel kind).base (all sizes)
      ((sizes.channel kind).base + (Layout.of sizes).stride) := by
  have hmetadata : Tiles (start kind) room (sizes.channel kind).base ([metadata] : List (ChannelBlock sizes))
      (sizes.channel kind).displayLock.base := tiles_singleton rfl (congrArg _ room_metadata)
  have hdisplay : Tiles (start kind) room (sizes.channel kind).displayLock.base ([display] : List (ChannelBlock sizes))
      (sizes.channel kind).events.base := tiles_singleton rfl (Nat.add_assoc _ _ _)
  have hring : Tiles (start kind) room (sizes.channel kind).packets.base ([ringHeader] : List (ChannelBlock sizes))
      (sizes.channel kind).packets.slotsAt := tiles_singleton rfl (congrArg _ room_ringHeader)
  exact (((hmetadata.append hdisplay).append (tiles_lanes sizes kind)).append hring).append (tiles_slots sizes kind)

end ChannelBlock

namespace SegmentBlock

/-- **The blocks of a segment tile it.** -/
theorem tiles_all (sizes : Sizes) : Tiles start room 0 (all sizes) (Layout.of sizes).totalSize := by
  have hchannels : Tiles (fun kind => (sizes.channel kind).base) (fun _ => (Layout.of sizes).stride)
      Layout.channelsAt ChannelKind.all (Layout.of sizes).totalSize := by
    rw [Layout.totalSize, Nat.mul_comm]
    refine tiles_of_stride (fun i h => ?_) fun _ _ => rfl
    show Layout.channelsAt + ChannelKind.all[i].index * (Layout.of sizes).stride = _
    rw [ChannelKind.index_getElem]
  have hheader : Tiles start room 0 ([header] : List (SegmentBlock sizes)) Layout.channelsAt :=
    tiles_singleton rfl (Nat.zero_add _ ▸ alignUp_of_dvd (Nat.dvd_mul_left cacheLine 2))
  have hblocks : Tiles start room Layout.channelsAt
      (ChannelKind.all.flatMap fun kind => (ChannelBlock.all sizes).map (channel kind))
      (Layout.of sizes).totalSize := by
    refine hchannels.flatMap fun kind _ => Tiles.map ?_
    exact ChannelBlock.tiles_all sizes kind
  exact hheader.append hblocks

/-- Every block lies inside the segment, with all of its cache lines. -/
theorem start_add_room_le (block : SegmentBlock sizes) : block.start + block.room ≤ (Layout.of sizes).totalSize :=
  ((tiles_all sizes).bounds block.mem_all).2

theorem stop_le (block : SegmentBlock sizes) : block.stop ≤ block.start + block.room :=
  Nat.add_le_add_left (le_alignUp _) _

/-- No two blocks share a cache line. -/
theorem disjoint {block block' : SegmentBlock sizes} (h : block ≠ block') :
    block.start + block.room ≤ block'.start ∨ block'.start + block'.room ≤ block.start :=
  (tiles_all sizes).disjoint block.mem_all block'.mem_all h

/-- Every offset of the segment lies in the cache lines of exactly one block. -/
theorem existsUnique {offset : Nat} (h : offset < (Layout.of sizes).totalSize) :
    ∃! block : SegmentBlock sizes, block.start ≤ offset ∧ offset < block.start + block.room := by
  obtain ⟨block, -, hlo, hhi⟩ := (tiles_all sizes).exists_mem (Nat.zero_le offset) h
  refine ⟨block, ⟨hlo, hhi⟩, fun block' ⟨hlo', hhi'⟩ => Decidable.byContradiction fun hne => ?_⟩
  rcases disjoint hne with hd | hd
  · exact absurd (Nat.lt_of_lt_of_le hhi' hd) (Nat.not_lt.2 hlo)
  · exact absurd (Nat.lt_of_lt_of_le hhi hd) (Nat.not_lt.2 hlo')

end SegmentBlock

/-! ## Exact offsets -/

/-- **Where a block starts is exact**: no sum and no product on the way overflows. -/
theorem ChannelBlock.startExact?_eq (h : sizes.Valid) (kind : ChannelKind) (block : ChannelBlock sizes) :
    block.startExact? kind = some (block.start kind) := by
  have hchannel : Channel.ofLayoutExact? kind (.of sizes) sizes.eventSlots = some (sizes.channel kind) :=
    h.channelOfLayoutExact?_eq kind
  -- All that is summed up on the way is at most the offset itself, which lies in the segment.
  have hend := (SegmentBlock.channel kind block).start_add_room_le
  have htotal := h.totalSize_lt
  have hstart : block.start kind < 1 <<< 64 :=
    Nat.lt_of_le_of_lt (Nat.le_trans (Nat.le_add_right _ _) hend) htotal
  rw [startExact?, hchannel, Option.bind_eq_bind, Option.bind_some]
  cases block with
  | metadata => rfl
  | display => rfl
  | ringHeader => rfl
  | lane k =>
    have hsum : start kind (lane k : ChannelBlock sizes) =
      (sizes.channel kind).events.base + k.lane * Lane.size sizes.eventSlots := rfl
    simp only [h.laneSizeExact?_eq, Option.bind_eq_bind, Option.bind_some]
    rw [Layout.word?_bind (by omega), ← hsum, Layout.word?_of_lt hstart]
  | slot i =>
    have hsum : start kind (slot i) =
      (sizes.channel kind).packets.base + PacketRing.headerSize + i * Seqlock.size sizes.slotSize := rfl
    simp only [h.slotSizeExact?_eq, Option.bind_eq_bind, Option.bind_some]
    rw [Layout.word?_bind (by omega), Layout.word?_bind (by omega), ← hsum, Layout.word?_of_lt hstart]

/-! ## Valid sizes -/

namespace Layout

/-- All that is computed from sizes fits in 64 bits, whether the sums on the way are checked or not: the layout, the
bytes of a segment, of lanes, of a ring and of the data region of a slot, and the offset of every block. -/
structure Exact (sizes : Sizes) : Prop where
  layout_eq : ofExact? sizes = some (of sizes)
  totalSize_eq : (of sizes).totalSizeExact? = some (of sizes).totalSize
  lanes_eq : EventLanes.sizeExact? sizes.eventSlots = some (EventLanes.size sizes.eventSlots)
  ring_eq : PacketRing.sizeExact? sizes.queueSize sizes.slotSize = some (PacketRing.size sizes.queueSize sizes.slotSize)
  dataSize_eq : word? (Seqlock.frameHeaderSize + sizes.slotSize) = some (Seqlock.frameHeaderSize + sizes.slotSize)
  start_eq : ∀ block : SegmentBlock sizes, block.startExact? = some block.start

/-- All blocks start with a cache line, lie inside the segment and do not overlap; and there is no other room between
them than what is left of their last lines. -/
structure Tiled (sizes : Sizes) : Prop where
  dvd_offsets : 64 ∣ (of sizes).display ∧ 64 ∣ (of sizes).events ∧ 64 ∣ (of sizes).packets ∧ 64 ∣ (of sizes).stride
  dvd_start : ∀ block : SegmentBlock sizes, 64 ∣ block.start
  stop_le : ∀ block : SegmentBlock sizes, block.stop ≤ 128 + 4 * (of sizes).stride
  disjoint : ∀ block block' : SegmentBlock sizes, block ≠ block' →
    block.stop ≤ block'.start ∨ block'.stop ≤ block.start
  tight : ∀ offset < 128 + 4 * (of sizes).stride,
    ∃! block : SegmentBlock sizes, block.start ≤ offset ∧ offset < block.start + alignUp block.size

theorem exact_of_valid (h : sizes.Valid) : Exact sizes where
  layout_eq := h.layoutOfExact?_eq
  totalSize_eq := h.totalSizeExact?_eq
  lanes_eq := h.lanesSizeExact?_eq
  ring_eq := h.ringSizeExact?_eq
  dataSize_eq := by
    have hslotSize : sizes.slotSize ≤ 1 <<< 32 - 1 := h.slotSize_le
    have hheader : Seqlock.frameHeaderSize = 16 := rfl
    exact word?_of_lt (by omega)
  start_eq
    | .header => rfl
    | .channel kind block => block.startExact?_eq h kind

theorem tiled (sizes : Sizes) : Tiled sizes where
  dvd_offsets := dvd_offsets sizes
  dvd_start block :=
    (SegmentBlock.tiles_all sizes).dvd_start (Nat.dvd_zero _) (fun _ _ => dvd_alignUp _) block.mem_all
  stop_le block := by
    rw [← totalSize_eq]
    exact Nat.le_trans block.stop_le block.start_add_room_le
  disjoint block block' hne :=
    (SegmentBlock.disjoint hne).imp (Nat.le_trans block.stop_le) (Nat.le_trans block'.stop_le)
  tight offset h := by
    rw [← totalSize_eq] at h
    exact SegmentBlock.existsUnique h

end Layout

namespace Segment

/-- With valid sizes, a segment is never refused for its configuration. -/
theorem create_ne_configuration (h : sizes.Valid) (s : SharedMemory) (name reason : String) :
    (create s name sizes).1 ≠ .error (.configuration reason) := by
  intro he
  rw [create_error_iff h] at he
  obtain ⟨s', hs'⟩ : ∃ s', s.create name (Layout.of sizes).totalSize = (.error (.configuration reason), s') :=
    ⟨_, Prod.ext he rfl⟩
  cases SharedMemory.creationFails_of_create hs' with
  | name hname =>
    rcases SharedMemory.checkName_error hname with h | h
    · cases h
    · cases h

/-- With valid sizes, somebody who attaches always finds a layout. -/
theorem layoutFor_of_valid (h : sizes.Valid) : layoutFor sizes = .ok (.of sizes) := by
  rw [layoutFor, Sizes.check_eq_ok_iff.2 h, Layout.of?_of_valid h]

/-- Every packet of a new segment lives in a block of its ring. -/
theorem exists_slot_of_create {s s' : SharedMemory} {name : String} {segment : Segment}
    (h : create s name sizes = (.ok segment, s')) (kind : ChannelKind) (index : UInt64) :
    ∃ i : Fin sizes.queueSize, i = (index - 1).toNat % sizes.queueSize ∧
      (((sizes.channel kind).packets.slot index).run (segment.bytes s')).1.base =
        (ChannelBlock.slot i).start kind := by
  obtain ⟨rfl, -, hlive, -⟩ := live_create h
  have hring : (segment.sizes.channel kind).packets.Sized segment.sizes.queueSize segment.sizes.slotSize
      (segment.bytes s') := PacketRing.SetUp.sized (hlive.ready kind .packets)
  refine ⟨⟨_, Nat.mod_lt _ hring.queueSize_pos⟩, rfl, ?_⟩
  rw [hring.run_slot]
  rfl

end Segment

namespace Layout

/-- **The layout of a segment is exact, tight and without overlaps.** Sizes that are found valid have a layout, so that
neither who creates the segment nor who attaches to it finds it too large; no sum and no product that goes into it
overflows; it leaves for lanes and ring what these take by their own count; its blocks follow one another, each on cache
lines of its own; and the packets of a segment that was created live in the slots among them. -/
theorem tiled_of_validate (h : sizes.validate = .ok ()) :
    (of? sizes = some (of sizes) ∧ Segment.layoutFor sizes = .ok (of sizes) ∧
      ∀ s name reason, (Segment.create s name sizes).1 ≠ .error (.configuration reason)) ∧
    Exact sizes ∧
    (ringSize? sizes = some (PacketRing.size sizes.queueSize sizes.slotSize) ∧
      (of sizes).packets = (of sizes).events + EventLanes.size sizes.eventSlots ∧
      (of sizes).stride = (of sizes).packets + PacketRing.size sizes.queueSize sizes.slotSize) ∧
    Tiled sizes ∧
    ∀ s name segment s', Segment.create s name sizes = (.ok segment, s') → ∀ kind index,
      ∃ i : Fin sizes.queueSize, i = (index - 1).toNat % sizes.queueSize ∧
        (((sizes.channel kind).packets.slot index).run (segment.bytes s')).1.base =
          (ChannelBlock.slot i).start kind := by
  have hv := Sizes.validate_eq_ok_iff.1 h
  refine ⟨⟨of?_of_valid hv, Segment.layoutFor_of_valid hv, Segment.create_ne_configuration hv⟩, exact_of_valid hv,
    ⟨ringSize?_of_valid hv, rfl, stride_eq sizes⟩, tiled sizes, ?_⟩
  intro s name segment s' hcreated
  exact Segment.exists_slot_of_create hcreated

/-- So it is for the largest of segments, which takes more than a petabyte. -/
theorem tiled_of_validate_largest :
    let sizes : Sizes := { queueSize := 65536, slotSize := 4294967295, eventSlots := 65536 }
    sizes.validate = .ok () ∧ of? sizes = some (of sizes) ∧ (of sizes).totalSize = 1125899973956992 ∧
      Exact sizes ∧ Tiled sizes := by
  intro sizes
  have hvalid : sizes.validate = .ok () := rfl
  obtain ⟨⟨hfound, -⟩, hexact, -, htiled, -⟩ := tiled_of_validate hvalid
  exact ⟨hvalid, hfound, by decide, hexact, htiled⟩

end Layout

end MediaChannels
