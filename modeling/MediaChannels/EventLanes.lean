import MediaChannels.Error
import MediaChannels.Memory.Access
import MediaChannels.Memory.CacheLine

/-!
# Event lanes

Control events travel beside the packets of a channel, in one lane for each kind, so that a backlog of one kind never
hides another. A lane is a queue of bounded length for one producer and one consumer. Its two counters run freely and
wrap around; an event lives in the slot that its counter gives modulo the number of slots.

A lane starts with the two counters (offset 0: next slot to fill, offset 64: next slot to read) and its number of slots
(offset 128). The slots follow at offset 192: a 32-bit tag, and at their offset 8 a 64-bit value. A lane that is set up
is empty, and all of its slots are cleared.

* `laneAt_add_stride_le`: lanes of different kinds do not overlap.
* `decodeFor?_eq_some_iff`: an entry counts only in the lane of its own kind.
-/

namespace MediaChannels

/-- One lane, by the offset at which it starts. -/
structure Lane where
  base : Nat

namespace Lane

/-- Bytes in front of the slots. -/
def headerSize : Nat := 3 * cacheLine

/-- Bytes of a slot. -/
def slotSize : Nat := 16

/-- Bytes that a lane takes. -/
def size (slots : Nat) : Nat := alignUp (headerSize + slots * slotSize)

variable (lane : Lane)

/-- Offset of the counter of slots read. -/
def readAt : Nat := lane.base + cacheLine

/-- Offset of the number of slots. -/
def slotCountAt : Nat := lane.base + 2 * cacheLine

/-- Offset of the first slot. -/
def slotsAt : Nat := lane.base + headerSize

/-- Clears `count` slots, the first at `offset`. -/
def clearSlots : Nat → Nat → Access Unit
  | 0, _ => pure ()
  | count + 1, offset => do
    Access.setWord32 offset 0
    Access.setWord64 (offset + 8) 0
    clearSlots count (offset + slotSize)

/-- Sets up an empty lane. -/
def init (slots : Nat) : Access Unit := do
  Access.setWord64 lane.base 0
  Access.setWord64 lane.readAt 0
  Access.setWord64 lane.slotCountAt (UInt64.ofNat slots)
  clearSlots slots lane.slotsAt

/-- Offset of the slot that a counter points to. -/
def slotAt (counter : UInt64) : Access Nat := do
  let slots ← Access.word64 lane.slotCountAt
  let place ← Access.rem counter slots
  return lane.slotsAt + place.toNat * slotSize

/-- The number of entries not yet read. -/
def pending : Access UInt64 := do
  let written ← Access.word64 lane.base
  let taken ← Access.word64 lane.readAt
  return written - taken

/-- Appends an entry; `false` if every slot holds an unread one. -/
def push (tag : UInt32) (value : Int64) : Access Bool := do
  let written ← Access.word64 lane.base
  let taken ← Access.word64 lane.readAt
  let slots ← Access.word64 lane.slotCountAt
  if slots ≤ written - taken then return false
  let slot ← lane.slotAt written
  Access.setWord32 slot tag
  Access.setWord64 (slot + 8) value.toUInt64
  Access.setWord64 lane.base (written + 1)
  return true

/-- The event of an entry in the lane of a kind. -/
def decodeFor? (kind : ControlKind) (tag : UInt32) (value : Int64) : Option ControlEvent :=
  (ControlEvent.decode? tag value).filter (·.kind = kind)

/-- The oldest event among the next `count` entries. Entries that are no event of the kind are dropped on the way, and
the event itself is dropped if `consume` says so. -/
def takeAmong (kind : ControlKind) (consume : Bool) : Nat → Access (Option ControlEvent)
  | 0 => pure none
  | count + 1 => do
    let taken ← Access.word64 lane.readAt
    let slot ← lane.slotAt taken
    let tag ← Access.word32 slot
    let value ← Access.word64 (slot + 8)
    match decodeFor? kind tag value.toInt64 with
    | some event =>
      if consume then Access.setWord64 lane.readAt (taken + 1)
      return some event
    | none =>
      Access.setWord64 lane.readAt (taken + 1)
      takeAmong kind consume count

/-- The oldest event of the lane. -/
def take (kind : ControlKind) (consume : Bool) : Access (Option ControlEvent) := do
  let pending ← lane.pending
  lane.takeAmong kind consume pending.toNat

/-- The last of up to `count` events, which are all consumed; `best` if there is none. -/
def lastAmong (kind : ControlKind) (best : Option ControlEvent) : Nat → Access (Option ControlEvent)
  | 0 => pure best
  | count + 1 => do
    match ← lane.take kind true with
    | some event => lastAmong kind (some event) count
    | none => return best

theorem decodeFor?_eq_some_iff {kind : ControlKind} {tag : UInt32} {value : Int64} {e : ControlEvent} :
    decodeFor? kind tag value = some e ↔ e.encode = (tag, value) ∧ e.WellFormed ∧ e.kind = kind := by
  rw [decodeFor?, Option.filter_eq_some_iff, ControlEvent.decode?_eq_some_iff]
  simp [and_assoc]

end Lane

/-- The lanes of a channel: the offset at which they start, and the slots that each of them has room for. -/
structure EventLanes where
  base : Nat
  slots : Nat

namespace EventLanes

/-- Bytes that the lanes of a channel take. -/
def size (slots : Nat) : Nat := ControlKind.all.length * Lane.size slots

variable (lanes : EventLanes)

/-- The lane of a kind. -/
def lane (kind : ControlKind) : Lane := ⟨lanes.base + kind.lane * Lane.size lanes.slots⟩

/-- Sets up empty lanes. -/
def init : Access Unit := do
  (lanes.lane .bitrate).init lanes.slots
  (lanes.lane .framerate).init lanes.slots
  (lanes.lane .pointer).init lanes.slots
  (lanes.lane .idr).init lanes.slots

/-- Appends an event to the lane of its kind. -/
def push (event : ControlEvent) : Access (Except Error Unit) := do
  if ← (lanes.lane event.kind).push event.kind.tag event.value then return .ok ()
  else return .error (.laneFull event.kind)

/-- Takes the oldest event of a kind. -/
def pop (kind : ControlKind) : Access (Option ControlEvent) := (lanes.lane kind).take kind true

/-- Looks at the oldest event of a kind. -/
def peek (kind : ControlKind) : Access (Option ControlEvent) := (lanes.lane kind).take kind false

/-- Empties the lane of a kind and gives its newest event. -/
def latest (kind : ControlKind) : Access (Option ControlEvent) := do
  let pending ← (lanes.lane kind).pending
  (lanes.lane kind).lastAmong kind none pending.toNat

/-- The number of unread entries in the lane of a kind. -/
def pending (kind : ControlKind) : Access UInt64 := (lanes.lane kind).pending

/-- Lanes of different kinds do not overlap, and all of them lie in the space that they take. -/
theorem laneAt_add_stride_le {k k' : ControlKind} (h : k.lane < k'.lane) :
    (lanes.lane k).base + Lane.size lanes.slots ≤ (lanes.lane k').base := by
  have := Nat.mul_le_mul_right (Lane.size lanes.slots) h
  simp only [lane]
  rw [Nat.succ_mul] at this
  omega

theorem laneAt_add_stride_le_size (k : ControlKind) :
    (lanes.lane k).base + Lane.size lanes.slots ≤ lanes.base + size lanes.slots := by
  have := Nat.mul_le_mul_right (Lane.size lanes.slots) k.lane_lt
  simp only [lane, size]
  rw [Nat.succ_mul] at this
  omega

end EventLanes

end MediaChannels
