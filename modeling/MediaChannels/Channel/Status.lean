import MediaChannels.Channel.Basic

/-!
# Channel status

What an observer sees of a channel, and the line in which it is reported.

* `run_status_snd`: looking at a channel changes nothing.
-/

namespace MediaChannels

/-- The visible state of a channel. -/
structure ChannelStatus where
  kind : ChannelKind
  active : Bool
  writeIndex : UInt64
  codec : Int32
  display : Option String
  deriving DecidableEq, Repr

/-- The status in one line; the display selector comes last, if there is one. -/
def ChannelStatus.text (s : ChannelStatus) : String :=
  let activity := if s.active then "active" else "idle"
  let line := s!"{s.kind.name}: {activity} written={s.writeIndex.toNat} codec={s.codec.toInt}"
  match s.display with
  | some display => s!"{line} display={display}"
  | none => line

namespace Channel

variable (channel : Channel)

/-- The status of a channel. -/
def status : Access ChannelStatus := do
  let active ← channel.isActive
  let writeIndex ← channel.packets.writeIndex
  let codec ← channel.codec
  let display ← channel.display
  return { kind := channel.kind, active, writeIndex, codec, display }

theorem run_readAgain_snd (lock : Seqlock) (attempts : Nat) (m : Memory) :
    ((readAgain lock attempts).run m).2 = m := by
  induction attempts with
  | zero => rfl
  | succ n ih =>
    by_cases h : m.word64 lock.base % 2 = 1
    · simp [readAgain, Seqlock.run_tryRead_of_odd lock h, ih]
    · simp [readAgain, Seqlock.run_tryRead_of_even lock h]

/-- Looking at a channel changes nothing. -/
theorem run_status_snd (m : Memory) : (channel.status.run m).2 = m := by
  simp [status, display, codec, PacketRing.writeIndex, run_readAgain_snd]

end Channel

end MediaChannels
