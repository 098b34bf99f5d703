import MediaChannels.Channel.Layout
import MediaChannels.Text.Utf8

/-!
# Channels

A channel of a segment: its packet ring and event lanes, and its metadata. The active flag is the byte at offset 0 of
the channel and the codec the 32-bit word at offset 64. The display selector is a text behind a sequence lock.

* `packets_eq`, `events_eq`: where the rings of a channel start.
-/

namespace MediaChannels

/-- One channel of a segment, by the offset at which it starts. -/
structure Channel where
  kind : ChannelKind
  base : Nat
  layout : Layout
  eventSlots : Nat

namespace Channel

/-- The channel of a kind in a segment with a layout. -/
def ofLayout (kind : ChannelKind) (layout : Layout) (eventSlots : Nat) : Channel :=
  { kind, base := Layout.channelsAt + kind.index * layout.stride, layout, eventSlots }

variable (channel : Channel)

/-- The packet ring. -/
def packets : PacketRing := ⟨channel.base + channel.layout.packets⟩

/-- The event lanes. -/
def events : EventLanes := ⟨channel.base + channel.layout.events, channel.eventSlots⟩

/-- The lock of the display selector. -/
def displayLock : Seqlock := ⟨channel.base + channel.layout.display⟩

/-- Offset of the codec. -/
def codecAt : Nat := channel.base + cacheLine

/-- Whether somebody works on the channel. -/
def isActive : Access Bool := do
  let flag ← Access.bytes channel.base 1
  return flag != [0]

/-- Sets the active flag. -/
def setActive (active : Bool) : Access Unit := Access.setBytes channel.base [if active then 1 else 0]

/-- The codec of the packets, a number of the producer's. -/
def codec : Access Int32 := do
  let word ← Access.word32 channel.codecAt
  return word.toInt32

/-- Sets the codec. -/
def setCodec (codec : Int32) : Access Unit := Access.setWord32 channel.codecAt codec.toUInt32

/-- How often a torn display selector is read again. -/
def displayAttempts : Nat := 64

/-- The frame behind a lock, read again for as long as it is torn, but no more than `attempts` times. -/
def readAgain (lock : Seqlock) : Nat → Access (Option Frame)
  | 0 => pure none
  | attempts + 1 => do
    match ← lock.tryRead with
    | some frame => return some frame
    | none => readAgain lock attempts

/-- The display selector; none if it is empty, or if its last write never ended. -/
def display : Access (Option String) := do
  let frame ← readAgain channel.displayLock displayAttempts
  return (frame.filter (!·.data.isEmpty)).map fun frame => Utf8.decodeLossy frame.data

/-- Sets the display selector; the empty text clears it. -/
def setDisplay (display : String) : Access (Except Error Unit) := do
  let data := Utf8.encode display
  if Layout.displayCapacity < data.length then
    return .error (.payloadTooLarge Layout.displayCapacity data.length)
  let _ ← channel.displayLock.write { index := 0, flags := 0, data }
  return .ok ()

/-- Sets up an idle channel. -/
def init (sizes : Sizes) : Access Unit := do
  channel.setActive false
  channel.setCodec 0
  channel.displayLock.init Layout.displayCapacity
  channel.events.init
  channel.packets.init sizes.queueSize sizes.slotSize

theorem packets_eq (kind : ChannelKind) (layout : Layout) (slots : Nat) :
    (ofLayout kind layout slots).packets = ⟨Layout.channelsAt + kind.index * layout.stride + layout.packets⟩ := rfl

theorem events_eq (kind : ChannelKind) (layout : Layout) (slots : Nat) :
    (ofLayout kind layout slots).events = ⟨Layout.channelsAt + kind.index * layout.stride + layout.events, slots⟩ := rfl

@[simp] theorem run_isActive (m : Memory) :
    channel.isActive.run m = (m.read channel.base 1 != [0], m) := rfl

@[simp] theorem run_setActive (m : Memory) (active : Bool) :
    (channel.setActive active).run m = ((), m.write channel.base [if active then 1 else 0]) := rfl

end Channel

end MediaChannels
