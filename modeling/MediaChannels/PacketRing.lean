import MediaChannels.Error
import MediaChannels.Packet
import MediaChannels.Seqlock

/-!
# Packet rings

A ring has a fixed number of slots, one producer and one consumer that follows with a cursor of its own. Packet `n` of
the stream, counted from one, lives in slot `(n - 1) % queueSize`. The producer never waits: a consumer that falls more
than `queueSize` packets behind finds the oldest of them overwritten, and counts them as skipped.

The ring starts with the number of packets published (offset 0) and its sizes (offsets 64, 72 and 80: slots, payload
bytes of a slot, distance of two slots). The slots follow at offset 128, each a sequence lock. The sizes are read from
memory at every use.

* `Poll.le_cursor_skipTo`: jumping over what was overwritten never moves a cursor back.
* `pushAll_nil`, `pushAll_cons`: packets are pushed in their order.
* `next_of_stop_le`: an iteration that has reached its end stays there.
-/

namespace MediaChannels

/-- A packet ring, by the offset at which it starts. -/
structure PacketRing where
  base : Nat

/-- A walk over the unread packets after a cursor, up to an end fixed when it began. -/
structure Poll where
  cursor : UInt64
  stop : UInt64
  /-- Packets passed over because they had been overwritten. -/
  skipped : UInt64 := 0
  deriving DecidableEq, Repr

namespace Poll

/-- The walk after everything up to `floor` is given up. -/
def skipTo (p : Poll) (floor : UInt64) : Poll :=
  if p.cursor < floor then { p with cursor := floor, skipped := p.skipped + (floor - p.cursor) } else p

/-- The walk after one packet was delivered. -/
def deliver (p : Poll) : Poll := { p with cursor := p.cursor + 1 }

/-- The walk after one packet was passed over. -/
def skip (p : Poll) : Poll := { p with cursor := p.cursor + 1, skipped := p.skipped + 1 }

@[simp] theorem stop_skipTo (p : Poll) (floor : UInt64) : (p.skipTo floor).stop = p.stop := by
  unfold skipTo
  split <;> rfl

theorem le_cursor_skipTo (p : Poll) (floor : UInt64) : p.cursor ≤ (p.skipTo floor).cursor := by
  unfold skipTo
  split
  · next h => exact UInt64.le_of_lt h
  · exact UInt64.le_refl _

theorem skipTo_of_le {p : Poll} {floor : UInt64} (h : floor ≤ p.cursor) : p.skipTo floor = p :=
  if_neg (UInt64.not_lt.2 h)

theorem le_cursor_of_skipTo (p : Poll) (floor : UInt64) : floor ≤ (p.skipTo floor).cursor := by
  unfold skipTo
  split
  · exact UInt64.le_refl _
  · next h => exact UInt64.not_lt.1 h

/-- Passing over a packet brings a walk closer to its end. -/
theorem remaining_skip_lt (p : Poll) (floor : UInt64) (h : ¬p.stop ≤ (p.skipTo floor).cursor) :
    (p.skipTo floor).skip.stop.toNat - (p.skipTo floor).skip.cursor.toNat < p.stop.toNat - p.cursor.toNat := by
  have hc := UInt64.le_iff_toNat_le.1 (p.le_cursor_skipTo floor)
  have hs := p.stop.toNat_lt
  rw [UInt64.le_iff_toNat_le] at h
  simp only [skip, stop_skipTo, UInt64.toNat_add, UInt64.toNat_one]
  omega

end Poll

namespace PacketRing

/-- Bytes in front of the slots. -/
def headerSize : Nat := 2 * cacheLine

/-- Bytes that a ring takes. -/
def size (queueSize slotSize : Nat) : Nat := headerSize + queueSize * Seqlock.size slotSize

variable (ring : PacketRing)

/-- Offset of the number of slots; the two other sizes follow. -/
def sizesAt : Nat := ring.base + cacheLine

/-- Offset of the first slot. -/
def slotsAt : Nat := ring.base + headerSize

/-- Sets up `count` slots, the first at `offset`. -/
def initSlots (slotSize : Nat) : Nat → Nat → Access Unit
  | 0, _ => pure ()
  | count + 1, offset => do
    Seqlock.init ⟨offset⟩ slotSize
    initSlots slotSize count (offset + Seqlock.size slotSize)

/-- Sets up an empty ring. -/
def init (queueSize slotSize : Nat) : Access Unit := do
  Access.setWord64 ring.base 0
  Access.setWord64 ring.sizesAt (UInt64.ofNat queueSize)
  Access.setWord64 (ring.sizesAt + 8) (UInt64.ofNat slotSize)
  Access.setWord64 (ring.sizesAt + 16) (UInt64.ofNat (Seqlock.size slotSize))
  initSlots slotSize queueSize ring.slotsAt

/-- The number of packets ever published. -/
def writeIndex : Access UInt64 := Access.word64 ring.base

/-- The number of slots. -/
def queueSize : Access UInt64 := Access.word64 ring.sizesAt

/-- The longest payload that a slot takes. -/
def slotSize : Access UInt64 := Access.word64 (ring.sizesAt + 8)

/-- The slot of a packet. -/
def slot (index : UInt64) : Access Seqlock := do
  let queueSize ← ring.queueSize
  let place ← Access.rem (index - 1) queueSize
  let stride ← Access.word64 (ring.sizesAt + 16)
  return ⟨ring.slotsAt + place.toNat * stride.toNat⟩

/-- Publishes a packet and gives its index; the oldest slot is overwritten when the ring is full. -/
def push (packet : Packet) : Access (Except Error UInt64) := do
  let max ← ring.slotSize
  if max.toNat < packet.data.length then
    return .error (.payloadTooLarge max.toNat packet.data.length)
  let published ← ring.writeIndex
  let index := published + 1
  let lock ← ring.slot index
  let _ ← lock.write { index, flags := packet.marks.toFlags, data := packet.data }
  Access.setWord64 ring.base index
  return .ok index

/-- Pushes packets one after the other, as far as the ring takes them. -/
def pushAll : List Packet → Access Unit
  | [] => pure ()
  | packet :: rest => do
    let _ ← ring.push packet
    pushAll rest

/-- Begins a walk over the packets after a cursor; it ends at what is published now. -/
def poll (cursor : UInt64) : Access Poll := do
  let stop ← ring.writeIndex
  return { cursor, stop }

/-- The index up to which packets have been, or are being, overwritten. -/
def floor (published queueSize : UInt64) : UInt64 := if queueSize ≤ published then published - queueSize else 0

/-- The next packet of a walk. A slot that is being written, or that holds another packet, is passed over. -/
def next (p : Poll) : Access (Option IndexedPacket × Poll) :=
  if p.stop ≤ p.cursor then pure (none, p)
  else do
    let published ← ring.writeIndex
    let queueSize ← ring.queueSize
    let q := p.skipTo (floor published queueSize)
    if _h : p.stop ≤ q.cursor then return (none, q)
    else
      let index := q.cursor + 1
      let lock ← ring.slot index
      let frame ← lock.tryRead
      match frame.filter (·.index = index) with
      | some frame =>
        return (some { index, packet := { data := frame.data, marks := .ofFlags frame.flags } }, q.deliver)
      | none => next q.skip
termination_by p.stop.toNat - p.cursor.toNat
decreasing_by exact p.remaining_skip_lt _ _h

theorem pushAll_nil : ring.pushAll [] = pure () := rfl

theorem pushAll_cons (packet : Packet) (rest : List Packet) :
    ring.pushAll (packet :: rest) = ring.push packet >>= fun _ => ring.pushAll rest := rfl

theorem next_of_stop_le {p : Poll} (h : p.stop ≤ p.cursor) : ring.next p = pure (none, p) := by
  rw [next, if_pos h]

end PacketRing

end MediaChannels
