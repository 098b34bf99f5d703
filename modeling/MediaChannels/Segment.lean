import MediaChannels.Channel.Status
import MediaChannels.SharedMemory

/-!
# Segments

A segment is a named region that holds four channels. Its creator writes the header last of all, with the magic number
as the final word; everybody else trusts nothing and checks the header against the size of the region and the sizes that
the channel itself carries.

The header: magic number at offset 0, version at 4, number of channels at 8 (32-bit words), then from offset 16 on the
three sizes and the distance of two channels (64-bit words).

* `verify_of_short`: a region too small for a header is refused before anything is read.
* `attach_snd_of_error`: a failed attach changes nothing.
-/

namespace MediaChannels

/-- A segment, on the side of its creator. -/
structure Segment where
  region : Region
  sizes : Sizes
  layout : Layout
  deriving DecidableEq, Repr

/-- A channel in a mapped region. -/
structure ChannelHandle where
  region : Region
  channel : Channel

namespace Segment

/-- Marks a region as a finished segment. -/
def magic : UInt32 := 0x53544D48

/-- The version of the layout. -/
def version : UInt32 := 1

/-- Bytes of the header. -/
def headerSize : Nat := Layout.channelsAt

/-- Offset of the version. -/
def versionAt : Nat := 4

/-- Offset of the number of channels. -/
def channelCountAt : Nat := 8

/-- Offset of the three sizes. -/
def sizesAt : Nat := 16

/-- Offset of the distance of two channels. -/
def strideAt : Nat := 40

/-- Sets up the channels of a list. -/
def initChannels (sizes : Sizes) (layout : Layout) : List ChannelKind → Access Unit
  | [] => pure ()
  | kind :: rest => do
    (Channel.ofLayout kind layout sizes.eventSlots).init sizes
    initChannels sizes layout rest

/-- Writes a segment into a region of zeroed bytes. -/
def init (sizes : Sizes) (layout : Layout) : Access Unit := do
  Access.setWord32 versionAt version
  Access.setWord32 channelCountAt (UInt32.ofNat ChannelKind.all.length)
  Access.setWord64 sizesAt (UInt64.ofNat sizes.queueSize)
  Access.setWord64 (sizesAt + 8) (UInt64.ofNat sizes.slotSize)
  Access.setWord64 (sizesAt + 16) (UInt64.ofNat sizes.eventSlots)
  Access.setWord64 strideAt (UInt64.ofNat layout.stride)
  initChannels sizes layout ChannelKind.all
  Access.setWord32 0 magic

/-- Creates a segment. -/
def create (s : SharedMemory) (name : String) (sizes : Sizes) : Except Error Segment × SharedMemory :=
  match sizes.validate with
  | .error e => (.error e, s)
  | .ok () =>
    match Layout.of? sizes with
    | none => (.error (.configuration s!"segment too large: {sizes.text}"), s)
    | some layout =>
      match s.create name layout.totalSize with
      | (.error e, s) => (.error e, s)
      | (.ok region, s) => (.ok { region, sizes, layout }, (s.access region.object (init sizes layout)).2)

/-- The handle of a channel, which shares the mapping of the segment. -/
def channel (segment : Segment) (kind : ChannelKind) : ChannelHandle :=
  { region := segment.region, channel := .ofLayout kind segment.layout segment.sizes.eventSlots }

/-- The sizes that a header gives. -/
def readSizes : Access Sizes := do
  let queueSize ← Access.word64 sizesAt
  let slotSize ← Access.word64 (sizesAt + 8)
  let eventSlots ← Access.word64 (sizesAt + 16)
  return { queueSize := queueSize.toNat, slotSize := slotSize.toNat, eventSlots := eventSlots.toNat }

/-- The layout for sizes, if a segment can have them. -/
def layoutFor (sizes : Sizes) : Except String Layout :=
  match sizes.check with
  | .error fault => .error fault.message
  | .ok () =>
    match Layout.of? sizes with
    | none => .error s!"layout overflows for {sizes.text}"
    | some layout => .ok layout

/-- The channel of a kind in a region of `size` bytes, if the header and the channel's ring allow it. -/
def verify (name : String) (size : Nat) (kind : ChannelKind) : Access (Except Error Channel) :=
  if size < headerSize then pure (.error (.truncated name headerSize size))
  else do
    let foundMagic ← Access.word32 0
    if foundMagic ≠ magic then return .error (.invalidMagic magic foundMagic)
    let foundVersion ← Access.word32 versionAt
    if foundVersion ≠ version then return .error (.incompatibleVersion version foundVersion)
    let channelCount ← Access.word32 channelCountAt
    if channelCount.toNat ≤ kind.index then return .error (.indexOutOfRange kind.index channelCount.toNat)
    let sizes ← readSizes
    match layoutFor sizes with
    | .error reason => return .error (.corrupt name reason)
    | .ok layout =>
      let stride ← Access.word64 strideAt
      if stride.toNat ≠ layout.stride then
        return .error (.corrupt name s!"channel stride {stride.toNat} does not match computed {layout.stride}")
      if size < layout.totalSize then return .error (.truncated name layout.totalSize size)
      let channel := Channel.ofLayout kind layout sizes.eventSlots
      let queueSize ← channel.packets.queueSize
      let slotSize ← channel.packets.slotSize
      if queueSize.toNat ≠ sizes.queueSize ∨ slotSize.toNat ≠ sizes.slotSize then
        let held := s!"{queueSize.toNat}x{slotSize.toNat}"
        let said := s!"{sizes.queueSize}x{sizes.slotSize}"
        return .error (.corrupt name s!"{kind.name} ring holds {held} bytes, segment says {said}")
      return .ok channel

/-- Attaches to the channel with an index in the segment that a name stands for. -/
def attach (s : SharedMemory) (name : String) (index : Nat) : Except Error ChannelHandle × SharedMemory :=
  match ChannelKind.ofIndex index with
  | .error e => (.error e, s)
  | .ok kind =>
    match s.openRegion name with
    | (.error e, _) => (.error e, s)
    | (.ok region, opened) =>
      match (verify name region.size kind).run (s.object region.object).memory with
      | (.error e, _) => (.error e, s)
      | (.ok channel, _) => (.ok { region, channel }, opened)

theorem verify_of_short {name : String} {size : Nat} (kind : ChannelKind) (h : size < headerSize) :
    verify name size kind = pure (.error (.truncated name headerSize size)) := by rw [verify, if_pos h]

/-- A failed attach changes nothing. -/
theorem attach_snd_of_error {s : SharedMemory} {name : String} {index : Nat} {e : Error}
    (h : (attach s name index).1 = .error e) : (attach s name index).2 = s := by
  unfold attach at h ⊢
  split
  · rfl
  split
  · rfl
  split
  · rfl
  · simp_all

end Segment

end MediaChannels
