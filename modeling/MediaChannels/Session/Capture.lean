import MediaChannels.Channel.Kind
import MediaChannels.Config.Settings
import MediaChannels.Mail.Office
import MediaChannels.Packet

/-!
# Capture

What fills the packet queue of a session. A script is a fixed list of packets after which capture waits or ends; the
test pattern is a synthetic stream of packets at the pace and of the size that the stream settings ask for, and follows
the requested bitrate.

* `length_frame`: a frame of the pattern has the size that was fixed for it.
* `one_le_frameBytes`: no video frame is empty.
* `one_le_interval`: no frame follows another at once.
-/

namespace MediaChannels

/-- What a look for an encoder leads to. -/
inductive ProbeOutcome where
  | works
  /-- The session is stopped, twice, while encoders are probed; one works. -/
  | stops
  | fails (e : Error)
  deriving DecidableEq, Repr

/-- When scripted capture ends. -/
inductive CaptureEnd where
  /-- When the session is shut down. -/
  | atShutdown
  /-- When this many packets are on the ring. -/
  | afterPackets (count : Nat)
  deriving DecidableEq, Repr

/-- A source of packets. -/
inductive CaptureBackend where
  /-- The outcomes of probes one after the other, of which the last one is repeated, and what capture does. -/
  | script (probes : List ProbeOutcome) (packets : List Packet) (ending : CaptureEnd)
  | testPattern
  deriving DecidableEq, Repr

/-- The outcome of a probe, by the number of probes before it. -/
def CaptureBackend.probe : CaptureBackend → Nat → ProbeOutcome
  | script probes _ _, earlier => (probes[min earlier (probes.length - 1)]?).getD .works
  | testPattern, _ => .works

/-- A test pattern that runs: the frames that it has made, and the bitrate that it follows. -/
structure TestPattern where
  frames : Nat := 0
  kbps : UInt32
  deriving DecidableEq, Repr

namespace TestPattern

/-- Bytes of a video frame, at least one. -/
def frameBytes (kbps fps : UInt32) : Nat := max 1 (kbps.toNat * 1000 / 8 / fps.toNat)

/-- Bytes of an audio packet: 48 samples in a millisecond, of two bytes for every channel. -/
def audioBytes (s : AudioSettings) : Nat := (48 * max s.packetDuration 1 * s.channels * 2).toNat

/-- Frames in a second, and between two frames that are complete in themselves. -/
def pace (s : VideoSettings) : UInt32 := max s.framerate 1

/-- Milliseconds from one frame to the next, rounded up. -/
def interval (s : StreamSettings) (kind : ChannelKind) : Nat :=
  if kind.isVideo then (999 + (pace s.video).toNat) / (pace s.video).toNat else (max s.audio.packetDuration 1).toNat

/-- The pattern at its beginning. -/
def start (s : StreamSettings) : TestPattern := { kbps := s.video.bitrate }

/-- The pattern after a bitrate was requested; audio has none. -/
def follow (p : TestPattern) (kind : ChannelKind) (requested : Option Int32) : TestPattern :=
  match requested with
  | some kbps => if kind.isVideo then { p with kbps := kbps.toUInt32 } else p
  | none => p

/-- Bytes of the next frame. -/
def size (p : TestPattern) (s : StreamSettings) (kind : ChannelKind) : Nat :=
  if kind.isVideo then frameBytes p.kbps (pace s.video) else audioBytes s.audio

/-- The marks of the next frame. -/
def marks (p : TestPattern) (s : StreamSettings) (kind : ChannelKind) : PacketMarks :=
  if kind.isVideo then { idr := p.frames % (pace s.video).toNat = 0 } else { tag := UInt16.ofNat kind.index }

/-- The next frame; every byte of it is its number modulo 251. -/
def frame (p : TestPattern) (s : StreamSettings) (kind : ChannelKind) : Packet :=
  { data := List.replicate (p.size s kind) (UInt8.ofNat (p.frames % 251)), marks := p.marks s kind }

/-- The pattern after a frame. -/
def next (p : TestPattern) : TestPattern := { p with frames := p.frames + 1 }

/-- Makes the next frame: the pattern takes up the bitrate that is requested from a mailbox, and the frame goes into the
packet queue that feeds the channel. -/
def capture (p : TestPattern) (s : StreamSettings) (kind : ChannelKind) (mailbox : Nat) (office : Office) :
    TestPattern × Office :=
  let (bitrate, office) := office.event mailbox .number MailKey.bitrate.text
  let p := p.follow kind (office.latch .number bitrate).value
  let (packets, office) := office.queueOf mailbox .packet (MailKey.packetQueue kind).text
  (p.next, office.setQueue .packet packets ((office.queue .packet packets).push (p.frame s kind)))

/-- A frame of the pattern has the size that was fixed for it. -/
@[simp] theorem length_frame (p : TestPattern) (s : StreamSettings) (kind : ChannelKind) :
    (p.frame s kind).data.length = p.size s kind := by simp [frame]

theorem one_le_max (n : UInt32) : 1 ≤ (max n 1).toNat := by
  rw [show max n 1 = if n ≤ 1 then 1 else n from rfl]
  split
  · decide
  · rename_i h
    simp only [UInt32.le_iff_toNat_le, UInt32.toNat_one] at h
    omega

theorem one_le_pace (s : VideoSettings) : 1 ≤ (pace s).toNat := one_le_max s.framerate

/-- No frame follows another at once. -/
theorem one_le_interval (s : StreamSettings) (kind : ChannelKind) : 1 ≤ interval s kind := by
  unfold interval
  split
  · rw [Nat.le_div_iff_mul_le (one_le_pace s.video), Nat.one_mul]
    exact Nat.le_add_left (pace s.video).toNat 999
  · exact one_le_max s.audio.packetDuration

/-- No video frame is empty. -/
theorem one_le_frameBytes (kbps fps : UInt32) : 1 ≤ frameBytes kbps fps := Nat.le_max_left _ _

end TestPattern

end MediaChannels
