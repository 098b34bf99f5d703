import MediaChannels.Config.Settings
import MediaChannels.Toml.Document

/-!
# Reading a configuration

A configuration is a document. A group of settings is a table, or an array of the settings in their order, of which the
last ones may be missing; a date stands for a group without any. Settings that are not given have their defaults, and
unknown ones are ignored.

* `setting_of_lookup`, `setting_of_none`: what a setting is, given and not given.
* `fieldsOf_array`: an array gives its items to the settings in order.
* `HostConfig.validate_of_ofText`: what is read is valid.
-/

namespace MediaChannels

open Toml (Value Entries)

namespace Config

/-- The settings that a value gives to a group with these names. -/
def fieldsOf (names : List String) : Value → Option Entries
  | .table _ entries => some entries
  | .array items => some (names.zip items)
  | .tables elements => some (names.zip (elements.map (Value.table .header)))
  | .dateTime _ => some []
  | _ => none

/-- A setting: what is given under its name, or else its default. -/
def setting {α : Type} (read : Value → Option α) (default : α) (es : Entries) (name : String) : Option α :=
  match es.lookup name with
  | some value => read value
  | none => some default

/-- A number from zero up to what `bound` excludes. -/
def natural? (bound : Nat) : Value → Option Nat
  | .integer n => if 0 ≤ n ∧ n < bound then some n.toNat else none
  | _ => none

/-- A number of 32 bits without a sign. -/
def word32? (value : Value) : Option UInt32 := (natural? (1 <<< 32) value).map UInt32.ofNat

/-- A number of 32 bits with a sign. -/
def number32? : Value → Option Int32
  | .integer n => if Int32.minValue.toInt ≤ n ∧ n ≤ Int32.maxValue.toInt then some (Int32.ofInt n) else none
  | _ => none

/-- A text. -/
def text? : Value → Option String
  | .text s => some s
  | _ => none

/-- A setting that may be missing. -/
def optional? {α : Type} (read : Value → Option α) (value : Value) : Option (Option α) := (read value).map some

/-- The names of the segment settings. -/
def segmentNames : List String := ["name", "queue_size", "slot_size", "event_slots"]

/-- The segment settings that a value gives. -/
def segment? (value : Value) : Option SegmentSettings := do
  let es ← fieldsOf segmentNames value
  let defaults : SegmentSettings := {}
  let name ← setting text? defaults.name es "name"
  let queueSize ← setting (natural? (1 <<< 64)) defaults.sizes.queueSize es "queue_size"
  let slotSize ← setting (natural? (1 <<< 64)) defaults.sizes.slotSize es "slot_size"
  let eventSlots ← setting (natural? (1 <<< 64)) defaults.sizes.eventSlots es "event_slots"
  return { name, sizes := { queueSize, slotSize, eventSlots } }

/-- The names of the audio settings. -/
def audioNames : List String := ["packet_duration", "channels", "channel_mask", "flags"]

/-- The audio settings that a value gives. -/
def audio? (value : Value) : Option AudioSettings := do
  let es ← fieldsOf audioNames value
  let defaults : AudioSettings := {}
  let packetDuration ← setting word32? defaults.packetDuration es "packet_duration"
  let channels ← setting word32? defaults.channels es "channels"
  let channelMask ← setting word32? defaults.channelMask es "channel_mask"
  let flags ← setting word32? defaults.flags es "flags"
  return { packetDuration, channels, channelMask, flags }

/-- The names of the video settings. -/
def videoNames : List String :=
  ["width", "height", "framerate", "bitrate", "slices_per_frame", "num_ref_frames", "encoder_csc_mode", "video_format",
    "dynamic_range"]

/-- The video settings that a value gives. -/
def video? (value : Value) : Option VideoSettings := do
  let es ← fieldsOf videoNames value
  let defaults : VideoSettings := {}
  let width ← setting word32? defaults.width es "width"
  let height ← setting word32? defaults.height es "height"
  let framerate ← setting word32? defaults.framerate es "framerate"
  let bitrate ← setting word32? defaults.bitrate es "bitrate"
  let slicesPerFrame ← setting word32? defaults.slicesPerFrame es "slices_per_frame"
  let refFrames ← setting word32? defaults.refFrames es "num_ref_frames"
  let colorMode ← setting word32? defaults.colorMode es "encoder_csc_mode"
  let format ← setting word32? defaults.format es "video_format"
  let dynamicRange ← setting word32? defaults.dynamicRange es "dynamic_range"
  return { width, height, framerate, bitrate, slicesPerFrame, refFrames, colorMode, format, dynamicRange }

/-- The names of the stream settings. -/
def streamNames : List String :=
  ["audio", "video", "packet_size", "min_required_fec_packets", "feature_flags", "control_protocol_type",
    "audio_qos_type", "video_qos_type", "gcmap"]

/-- The stream settings that a value gives. -/
def stream? (value : Value) : Option StreamSettings := do
  let es ← fieldsOf streamNames value
  let defaults : StreamSettings := {}
  let audio ← setting audio? defaults.audio es "audio"
  let video ← setting video? defaults.video es "video"
  let packetSize ← setting word32? defaults.packetSize es "packet_size"
  let minFecPackets ← setting word32? defaults.minFecPackets es "min_required_fec_packets"
  let featureFlags ← setting word32? defaults.featureFlags es "feature_flags"
  let controlProtocol ← setting number32? defaults.controlProtocol es "control_protocol_type"
  let audioQos ← setting number32? defaults.audioQos es "audio_qos_type"
  let videoQos ← setting number32? defaults.videoQos es "video_qos_type"
  let keyMap ← setting (optional? number32?) defaults.keyMap es "gcmap"
  return { audio, video, packetSize, minFecPackets, featureFlags, controlProtocol, audioQos, videoQos, keyMap }

/-- The configuration that the table of a document gives. -/
def host? (es : Entries) : Option HostConfig := do
  let defaults : HostConfig := {}
  let segment ← setting segment? defaults.segment es "segment"
  let pollInterval ← setting (natural? (1 <<< 64)) defaults.pollInterval.toNat es "poll_interval_ms"
  let shutdownGrace ← setting (natural? (1 <<< 64)) defaults.shutdownGrace.toNat es "shutdown_grace_secs"
  let minLogLevel ← setting (natural? (1 <<< 8)) defaults.minLogLevel.toNat es "min_log_level"
  let logFile ← setting (optional? text?) defaults.logFile es "log_file"
  let stream ← setting stream? defaults.stream es "stream"
  return { segment, stream, logFile
           pollInterval := UInt64.ofNat pollInterval
           shutdownGrace := UInt64.ofNat shutdownGrace
           minLogLevel := UInt8.ofNat minLogLevel }

theorem setting_of_lookup {α : Type} {read : Value → Option α} {default : α} {es : Entries} {name : String} {v : Value}
    (h : es.lookup name = some v) : setting read default es name = read v := by simp [setting, h]

theorem setting_of_none {α : Type} {read : Value → Option α} {default : α} {es : Entries} {name : String}
    (h : es.lookup name = none) : setting read default es name = some default := by simp [setting, h]

theorem fieldsOf_array (names : List String) (items : List Value) :
    fieldsOf names (.array items) = some (names.zip items) := rfl

end Config

namespace HostConfig

/-- Reads a configuration and checks it. -/
def ofText (text : String) : Except Error HostConfig :=
  match Toml.entriesOfText? text with
  | none => .error (.document "not a document")
  | some es =>
    match Config.host? es with
    | none => .error (.document "a setting has the wrong type")
    | some config => config.validate.map fun _ => config

theorem validate_of_ofText {text : String} {c : HostConfig} (h : ofText text = .ok c) : c.validate = .ok () := by
  unfold ofText at h
  split at h
  · cases h
  split at h
  · cases h
  · next config _ =>
    cases hv : config.validate with
    | error e => rw [hv] at h; cases h
    | ok u => rw [hv] at h; cases h; exact hv

end HostConfig

end MediaChannels
