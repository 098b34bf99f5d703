/-!
# Packets

A packet is a payload with two marks: whether it starts a self-contained frame, and a tag of its producer. In shared
memory the marks are one word of flags: the frame mark in bit 0 and the tag in bits 16 to 31.

* `ofFlags_toFlags`: the marks survive the word.
-/

namespace MediaChannels

/-- The marks of a packet. -/
structure PacketMarks where
  /-- The packet starts a self-contained video frame. -/
  idr : Bool := false
  /-- A number that the producer chose: the stream of audio and input. -/
  tag : UInt16 := 0
  deriving DecidableEq, Repr, Inhabited

namespace PacketMarks

/-- The word of flags that holds the marks. -/
def toFlags (marks : PacketMarks) : UInt32 := UInt32.ofNat (marks.tag.toNat <<< 16 + marks.idr.toNat)

/-- The marks that a word of flags holds; its bits 1 to 15 mean nothing. -/
def ofFlags (flags : UInt32) : PacketMarks :=
  { idr := flags.toNat % 2 == 1, tag := UInt16.ofNat (flags.toNat >>> 16) }

theorem toNat_toFlags (marks : PacketMarks) : marks.toFlags.toNat = marks.tag.toNat <<< 16 + marks.idr.toNat := by
  have ht := marks.tag.toNat_lt
  have hi := marks.idr.toNat_lt
  rw [toFlags, UInt32.toNat_ofNat']
  omega

@[simp] theorem ofFlags_toFlags (marks : PacketMarks) : ofFlags marks.toFlags = marks := by
  have ht := marks.tag.toNat_lt
  have hi : (marks.tag.toNat <<< 16 + marks.idr.toNat) % 2 = marks.idr.toNat := by
    have := marks.idr.toNat_lt
    omega
  have hd : (marks.tag.toNat <<< 16 + marks.idr.toNat) >>> 16 = marks.tag.toNat := by
    have := marks.idr.toNat_lt
    omega
  obtain ⟨idr, tag⟩ := marks
  simp only [ofFlags, toNat_toFlags, hi, hd, UInt16.ofNat_toNat]
  cases idr <;> rfl

end PacketMarks

/-- A payload with its marks. -/
structure Packet where
  data : List UInt8
  marks : PacketMarks := {}
  deriving DecidableEq, Repr, Inhabited

/-- A packet with its place in the stream of its channel; the first has index one. -/
structure IndexedPacket where
  index : UInt64
  packet : Packet
  deriving DecidableEq, Repr

end MediaChannels
