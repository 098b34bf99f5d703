import MediaChannels.Channel.Sizes

/-!
# Host configuration

What a host can be told: the segment that it serves, the pace of its loops, its log, and the parameters of new capture
sessions. Every setting has a default.

* `HostConfig.validate_default`: the defaults are a valid configuration.
* `HostConfig.sizes_valid_of_validate`: a valid configuration has sizes that a segment can have.
-/

namespace MediaChannels

/-- Name and sizes of the segment. -/
structure SegmentSettings where
  name : String := "host"
  sizes : Sizes := {}
  deriving DecidableEq, Repr, Inhabited

/-- Parameters of captured audio; a packet lasts for `packetDuration` milliseconds. -/
structure AudioSettings where
  packetDuration : UInt32 := 5
  channels : UInt32 := 2
  channelMask : UInt32 := 3
  flags : UInt32 := 0
  deriving DecidableEq, Repr, Inhabited

/-- Parameters of captured video; the bitrate is in kilobits per second. -/
structure VideoSettings where
  width : UInt32 := 1920
  height : UInt32 := 1080
  framerate : UInt32 := 60
  bitrate : UInt32 := 1000
  slicesPerFrame : UInt32 := 1
  /-- Zero lets the encoder decide. -/
  refFrames : UInt32 := 0
  /-- Bit 0 for the full range, the bits above for the matrix. -/
  colorMode : UInt32 := 1
  /-- The codec family. -/
  format : UInt32 := 0
  dynamicRange : UInt32 := 0
  deriving DecidableEq, Repr, Inhabited

/-- Parameters of a capture session. -/
structure StreamSettings where
  audio : AudioSettings := {}
  video : VideoSettings := {}
  packetSize : UInt32 := 1024
  minFecPackets : UInt32 := 2
  featureFlags : UInt32 := 0
  controlProtocol : Int32 := 0
  audioQos : Int32 := 0
  videoQos : Int32 := 0
  /-- The key rotation map, if the client asked for one. -/
  keyMap : Option Int32 := none
  deriving DecidableEq, Repr, Inhabited

/-- The configuration of a host. -/
structure HostConfig where
  segment : SegmentSettings := {}
  /-- Milliseconds between two looks at the shutdown latches. -/
  pollInterval : UInt64 := 2
  /-- Seconds that a shutdown may take. -/
  shutdownGrace : UInt64 := 10
  /-- From zero for everything to five for what is fatal. -/
  minLogLevel : UInt8 := 2
  logFile : Option String := none
  stream : StreamSettings := {}
  deriving DecidableEq, Repr, Inhabited

namespace HostConfig

/-- The highest log level. -/
def maxLogLevel : UInt8 := 5

/-- Whether the settings make sense. -/
def validate (c : HostConfig) : Except Error Unit :=
  if maxLogLevel < c.minLogLevel then
    .error (.configuration s!"min_log_level must be 0..={maxLogLevel.toNat}, got {c.minLogLevel.toNat}")
  else if c.pollInterval = 0 then .error (.configuration "poll_interval_ms must be non-zero")
  else if c.segment.name = "" then .error (.configuration "segment name must not be empty")
  else c.segment.sizes.validate

theorem validate_eq_ok_iff {c : HostConfig} :
    c.validate = .ok () ↔
      c.minLogLevel ≤ maxLogLevel ∧ c.pollInterval ≠ 0 ∧ c.segment.name ≠ "" ∧ c.segment.sizes.Valid := by
  unfold validate
  split
  · next h => simp [UInt8.not_le.2 h]
  · next h =>
    rw [UInt8.not_lt] at h
    split
    · simp_all
    split
    · simp_all
    simp_all [Sizes.validate_eq_ok_iff]

/-- A valid configuration has sizes that a segment can have. -/
theorem sizes_valid_of_validate {c : HostConfig} (h : c.validate = .ok ()) : c.segment.sizes.Valid :=
  (validate_eq_ok_iff.1 h).2.2.2

/-- The defaults are a valid configuration. -/
theorem validate_default : ({} : HostConfig).validate = .ok () :=
  validate_eq_ok_iff.2 ⟨by decide, by decide, by decide, by constructor <;> decide⟩

end HostConfig

end MediaChannels
