import MediaChannels.Error

/-!
# Segment sizes

The three sizes that fix the layout of a segment, and the limits that a new segment and the header of an existing one
are both held to.

* `check_eq_ok_iff`: the limits, said at once.
-/

namespace MediaChannels

/-- Packet slots of a channel, payload bytes of a packet slot, and slots of an event lane. -/
structure Sizes where
  queueSize : Nat := 16
  slotSize : Nat := 512 * 1024
  eventSlots : Nat := 32
  deriving DecidableEq, Repr, Inhabited

/-- What is wrong with sizes. -/
inductive SizeFault where
  | zero (sizes : Sizes)
  | tooManySlots (sizes : Sizes)
  | slotTooLarge (slotSize : Nat)
  deriving DecidableEq, Repr

namespace Sizes

/-- Most packet slots of a channel, and most slots of an event lane. -/
def maxSlots : Nat := 1 <<< 16

/-- Most payload bytes of a packet slot: lengths are stored in 32 bits. -/
def maxSlotSize : Nat := 1 <<< 32 - 1

/-- The sizes as they are shown. -/
def text (s : Sizes) : String :=
  s!"SegmentConfig \x7b queue_size: {s.queueSize}, slot_size: {s.slotSize}, event_slots: {s.eventSlots} \x7d"

/-- Whether a segment can have the sizes. -/
def check (s : Sizes) : Except SizeFault Unit :=
  if s.queueSize = 0 ∨ s.slotSize = 0 ∨ s.eventSlots = 0 then .error (.zero s)
  else if maxSlots < s.queueSize ∨ maxSlots < s.eventSlots then .error (.tooManySlots s)
  else if maxSlotSize < s.slotSize then .error (.slotTooLarge s.slotSize)
  else .ok ()

end Sizes

/-- The words of a fault. -/
def SizeFault.message : SizeFault → String
  | zero sizes => s!"segment sizes must be non-zero: {sizes.text}"
  | tooManySlots sizes =>
    s!"at most {Sizes.maxSlots} packet slots and {Sizes.maxSlots} event slots, got {sizes.text}"
  | slotTooLarge slotSize => s!"slot_size {slotSize} exceeds {Sizes.maxSlotSize}"

namespace Sizes

/-- `check` for users who configure a segment. -/
def validate (s : Sizes) : Except Error Unit :=
  s.check.mapError fun fault => .configuration fault.message

/-- The sizes that a segment can have. -/
structure Valid (s : Sizes) : Prop where
  queueSize_pos : 0 < s.queueSize
  queueSize_le : s.queueSize ≤ maxSlots
  slotSize_pos : 0 < s.slotSize
  slotSize_le : s.slotSize ≤ maxSlotSize
  eventSlots_pos : 0 < s.eventSlots
  eventSlots_le : s.eventSlots ≤ maxSlots

theorem check_eq_ok_iff {s : Sizes} : s.check = .ok () ↔ s.Valid := by
  unfold check
  constructor
  · intro h
    split at h
    · cases h
    split at h
    · cases h
    split at h
    · cases h
    constructor <;> omega
  · rintro ⟨_, _, _, _, _, _⟩
    rw [if_neg (by omega), if_neg (by omega), if_neg (by omega)]

theorem validate_eq_ok_iff {s : Sizes} : s.validate = .ok () ↔ s.Valid := by
  rw [← check_eq_ok_iff, validate]
  cases s.check with
  | error fault => exact ⟨nofun, nofun⟩
  | ok => exact ⟨fun _ => rfl, fun _ => rfl⟩

end Sizes

end MediaChannels
