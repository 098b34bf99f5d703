import MediaChannels.Config.Reader
import MediaChannels.Toml.Printer

/-!
# Writing a configuration

The document of a configuration has every setting. Settings that are missing are left out; a group has a section of its
own. A configuration with a number that no document can hold has no text.

* `length_sections`: there are four sections.
-/

namespace MediaChannels

open Toml (Value Assignment Section Document)

namespace Config

/-- Whether documents can hold the value of an assignment: their integers have 64 bits. -/
def fits (a : Assignment) : Bool :=
  match a.value with
  | .integer n => Int64.minValue.toInt ≤ n && n ≤ Int64.maxValue.toInt
  | _ => true

/-- An assignment of a text. -/
def assignText (name s : String) : Assignment := { path := [name], value := .text s }

/-- An assignment of a number. -/
def assignNumber (name : String) (n : Int) : Assignment := { path := [name], value := .integer n }

/-- The section of a table. -/
def sectionOf (path : List String) (assignments : List Assignment) : Section :=
  { header := { path, element := false }, assignments }

/-- The section of the segment settings. -/
def segmentSection (s : SegmentSettings) : Section :=
  sectionOf ["segment"]
    [assignText "name" s.name,
     assignNumber "queue_size" s.sizes.queueSize,
     assignNumber "slot_size" s.sizes.slotSize,
     assignNumber "event_slots" s.sizes.eventSlots]

/-- The section of the stream settings. -/
def streamSection (s : StreamSettings) : Section :=
  sectionOf ["stream"]
    ([assignNumber "packet_size" s.packetSize.toNat,
      assignNumber "min_required_fec_packets" s.minFecPackets.toNat,
      assignNumber "feature_flags" s.featureFlags.toNat,
      assignNumber "control_protocol_type" s.controlProtocol.toInt,
      assignNumber "audio_qos_type" s.audioQos.toInt,
      assignNumber "video_qos_type" s.videoQos.toInt] ++
     s.keyMap.toList.map fun map => assignNumber "gcmap" map.toInt)

/-- The section of the audio settings. -/
def audioSection (s : AudioSettings) : Section :=
  sectionOf ["stream", "audio"]
    [assignNumber "packet_duration" s.packetDuration.toNat,
     assignNumber "channels" s.channels.toNat,
     assignNumber "channel_mask" s.channelMask.toNat,
     assignNumber "flags" s.flags.toNat]

/-- The section of the video settings. -/
def videoSection (s : VideoSettings) : Section :=
  sectionOf ["stream", "video"]
    [assignNumber "width" s.width.toNat,
     assignNumber "height" s.height.toNat,
     assignNumber "framerate" s.framerate.toNat,
     assignNumber "bitrate" s.bitrate.toNat,
     assignNumber "slices_per_frame" s.slicesPerFrame.toNat,
     assignNumber "num_ref_frames" s.refFrames.toNat,
     assignNumber "encoder_csc_mode" s.colorMode.toNat,
     assignNumber "video_format" s.format.toNat,
     assignNumber "dynamic_range" s.dynamicRange.toNat]

end Config

namespace HostConfig

/-- The document of a configuration. -/
def document (c : HostConfig) : Document where
  assignments :=
    [Config.assignNumber "poll_interval_ms" c.pollInterval.toNat,
     Config.assignNumber "shutdown_grace_secs" c.shutdownGrace.toNat,
     Config.assignNumber "min_log_level" c.minLogLevel.toNat] ++
    c.logFile.toList.map fun file => Config.assignText "log_file" file
  sections :=
    [Config.segmentSection c.segment, Config.streamSection c.stream, Config.audioSection c.stream.audio,
     Config.videoSection c.stream.video]

/-- The text of a configuration. -/
def text (c : HostConfig) : String := String.ofList c.document.write

/-- The text of a configuration, if documents can hold all of its numbers. -/
def text? (c : HostConfig) : Option String :=
  if c.document.assignments.all Config.fits && c.document.sections.all (·.assignments.all Config.fits) then some c.text
  else none

theorem length_sections (c : HostConfig) : c.document.sections.length = 4 := rfl

end HostConfig

end MediaChannels
