import MediaChannels.Config.Writer

/-!
# The tables of a configuration

A configuration is the same as the tables in which it stands: one for each group of settings. Reading a table takes from
it the settings that are given, and the rest from the defaults.

* `HostConfig.entries`: the table of a configuration, and those of its groups.
* `natural?_eq_some_iff`, `word32?_eq_some_iff`, `number32?_eq_some_iff`: which values a setting can have.
* `setting_iff_or`: a setting has the value that is given, or its default.
* `Overlays`: the settings of a table, laid over the defaults. That is what reading a group does (`audio?_eq_some_iff`,
  `stream?_eq_some_iff`, `host?_eq_some_iff`).
* `host?_entries`: a configuration is read again from its table.
* `HostConfig.ofText_eq_ok_iff`: what it takes for a text to be accepted.
-/

namespace MediaChannels

open Toml (Value Entries)

/-! ## The tables -/

/-- The table of segment settings. -/
def SegmentSettings.entries (s : SegmentSettings) : Entries :=
  [("name", .text s.name),
   ("queue_size", .integer s.sizes.queueSize),
   ("slot_size", .integer s.sizes.slotSize),
   ("event_slots", .integer s.sizes.eventSlots)]

/-- The table of audio settings. -/
def AudioSettings.entries (s : AudioSettings) : Entries :=
  [("packet_duration", .integer s.packetDuration.toNat),
   ("channels", .integer s.channels.toNat),
   ("channel_mask", .integer s.channelMask.toNat),
   ("flags", .integer s.flags.toNat)]

/-- The table of video settings. -/
def VideoSettings.entries (s : VideoSettings) : Entries :=
  [("width", .integer s.width.toNat),
   ("height", .integer s.height.toNat),
   ("framerate", .integer s.framerate.toNat),
   ("bitrate", .integer s.bitrate.toNat),
   ("slices_per_frame", .integer s.slicesPerFrame.toNat),
   ("num_ref_frames", .integer s.refFrames.toNat),
   ("encoder_csc_mode", .integer s.colorMode.toNat),
   ("video_format", .integer s.format.toNat),
   ("dynamic_range", .integer s.dynamicRange.toNat)]

/-- The table of stream settings. -/
def StreamSettings.entries (s : StreamSettings) : Entries :=
  [("packet_size", .integer s.packetSize.toNat),
   ("min_required_fec_packets", .integer s.minFecPackets.toNat),
   ("feature_flags", .integer s.featureFlags.toNat),
   ("control_protocol_type", .integer s.controlProtocol.toInt),
   ("audio_qos_type", .integer s.audioQos.toInt),
   ("video_qos_type", .integer s.videoQos.toInt)] ++
  (s.keyMap.toList.map fun map => ("gcmap", .integer map.toInt)) ++
  [("audio", .table .header s.audio.entries), ("video", .table .header s.video.entries)]

/-- The table of a configuration. -/
def HostConfig.entries (c : HostConfig) : Entries :=
  [("poll_interval_ms", .integer c.pollInterval.toNat),
   ("shutdown_grace_secs", .integer c.shutdownGrace.toNat),
   ("min_log_level", .integer c.minLogLevel.toNat)] ++
  (c.logFile.toList.map fun file => ("log_file", .text file)) ++
  [("segment", .table .header c.segment.entries), ("stream", .table .header c.stream.entries)]

namespace StreamSettings

variable (s : StreamSettings)

theorem lookup_gcmap : s.entries.lookup "gcmap" = s.keyMap.map fun map => .integer map.toInt := by
  rw [entries]
  cases s.keyMap <;> rfl

theorem lookup_audio : s.entries.lookup "audio" = some (.table .header s.audio.entries) := by
  rw [entries]
  cases s.keyMap <;> rfl

theorem lookup_video : s.entries.lookup "video" = some (.table .header s.video.entries) := by
  rw [entries]
  cases s.keyMap <;> rfl

end StreamSettings

namespace HostConfig

variable (c : HostConfig)

theorem lookup_logFile : c.entries.lookup "log_file" = c.logFile.map .text := by
  rw [entries]
  cases c.logFile <;> rfl

theorem lookup_segment : c.entries.lookup "segment" = some (.table .header c.segment.entries) := by
  rw [entries]
  cases c.logFile <;> rfl

theorem lookup_stream : c.entries.lookup "stream" = some (.table .header c.stream.entries) := by
  rw [entries]
  cases c.logFile <;> rfl

/-- It is what the document of the configuration builds. -/
theorem entries?_document : c.document.entries? = some c.entries := by
  obtain ⟨segment, poll, grace, level, logFile, ⟨audio, video, size, fec, flags, control, aq, vq, keyMap⟩⟩ := c
  cases logFile with
  | none => cases keyMap <;> rfl
  | some file => cases keyMap <;> rfl

end HostConfig

/-- The sizes are numbers of 64 bits. -/
structure SegmentSettings.Fits (s : SegmentSettings) : Prop where
  queueSize : s.sizes.queueSize < 1 <<< 64
  slotSize : s.sizes.slotSize < 1 <<< 64
  eventSlots : s.sizes.eventSlots < 1 <<< 64

namespace Config

variable {α : Type} {v : Value} {es : Entries} {name : String}

/-! ## The values of settings -/

theorem natural?_eq_some_iff {bound n : Nat} : natural? bound v = some n ↔ v = .integer n ∧ n < bound := by
  unfold natural?
  split
  · next m =>
    rw [Option.ite_none_right_eq_some, Option.some_inj, Value.integer.injEq]
    omega
  · next hnot =>
    constructor
    · intro h
      cases h
    · rintro ⟨rfl, -⟩
      exact absurd rfl (hnot n)

theorem word32?_eq_some_iff {x : UInt32} : word32? v = some x ↔ v = .integer x.toNat := by
  rw [word32?, Option.map_eq_some_iff]
  constructor
  · rintro ⟨n, hn, rfl⟩
    obtain ⟨rfl, hlt⟩ := natural?_eq_some_iff.1 hn
    rw [UInt32.toNat_ofNat_of_lt' hlt]
  · rintro rfl
    exact ⟨x.toNat, natural?_eq_some_iff.2 ⟨rfl, x.toNat_lt⟩, UInt32.ofNat_toNat⟩

theorem number32?_eq_some_iff {x : Int32} : number32? v = some x ↔ v = .integer x.toInt := by
  unfold number32?
  split
  · next n =>
    rw [Option.ite_none_right_eq_some, Option.some_inj, Value.integer.injEq]
    constructor
    · rintro ⟨⟨hmin, hmax⟩, rfl⟩
      exact (Int32.toInt_ofInt_of_le hmin (Int.lt_of_le_of_lt hmax (by decide))).symm
    · rintro rfl
      exact ⟨⟨x.minValue_le_toInt, x.toInt_le⟩, Int32.ofInt_toInt x⟩
  · next hnot =>
    constructor
    · intro h
      cases h
    · rintro rfl
      exact absurd rfl (hnot _)

theorem text?_eq_some_iff {s : String} : text? v = some s ↔ v = .text s := by
  unfold text?
  split
  · rw [Option.some_inj, Value.text.injEq]
  · next hnot =>
    constructor
    · intro h
      cases h
    · rintro rfl
      exact absurd rfl (hnot s)

theorem setting_eq_some_iff {read : Value → Option α} {default x : α} :
    setting read default es name = some x ↔
      es.lookup name = none ∧ default = x ∨ ∃ v, es.lookup name = some v ∧ read v = some x := by
  cases h : es.lookup name with
  | none => simp [setting_of_none h]
  | some v => simp [setting_of_lookup h]

/-! ## What is given, or the default -/

/-- A setting has the value that is given, or that of its default. -/
theorem setting_iff_or {read : Value → Option α} (write : α → Value) (hread : ∀ v x, read v = some x ↔ v = write x)
    {default x : α} :
    setting read default es name = some x ↔ some (write x) = (es.lookup name).or (some (write default)) := by
  have hinj : ∀ x y, write x = write y ↔ x = y := by
    intro x y
    rw [← hread, (hread (write x) x).2 rfl, Option.some_inj]
  rw [setting_eq_some_iff]
  cases h : es.lookup name with
  | none => simp [hinj, eq_comm]
  | some v => simp [hread, eq_comm]

theorem word_iff_or {x default : UInt32} :
    setting word32? default es name = some x ↔
      some (.integer x.toNat) = (es.lookup name).or (some (.integer default.toNat)) :=
  setting_iff_or (fun x : UInt32 => .integer x.toNat) fun _ _ => word32?_eq_some_iff

theorem number_iff_or {x default : Int32} :
    setting number32? default es name = some x ↔
      some (.integer x.toInt) = (es.lookup name).or (some (.integer default.toInt)) :=
  setting_iff_or (fun x : Int32 => .integer x.toInt) fun _ _ => number32?_eq_some_iff

theorem text_iff_or {s default : String} :
    setting text? default es name = some s ↔ some (.text s) = (es.lookup name).or (some (.text default)) :=
  setting_iff_or .text fun _ _ => text?_eq_some_iff

theorem natural_iff_or {bound n default : Nat} (hdefault : default < bound) :
    setting (natural? bound) default es name = some n ↔
      some (.integer n) = (es.lookup name).or (some (.integer default)) ∧ n < bound := by
  rw [setting_eq_some_iff]
  cases h : es.lookup name with
  | none =>
    simp only [reduceCtorEq, false_and, exists_false, or_false, true_and, Option.none_or, Option.some_inj,
      Value.integer.injEq]
    omega
  | some v => simp [natural?_eq_some_iff, @eq_comm _ _ v]

/-- A setting that may be missing is missing if it is not given. -/
theorem optional_iff_or {read : Value → Option α} (write : α → Value) (hread : ∀ v x, read v = some x ↔ v = write x)
    {o : Option α} : setting (optional? read) none es name = some o ↔ o.map write = (es.lookup name).or none := by
  rw [setting_eq_some_iff]
  cases h : es.lookup name with
  | none => cases o <;> simp
  | some v => cases o <;> simp [optional?, hread, eq_comm]

/-- A table has the settings that another gives, and defaults for the rest. -/
def Overlays (names : List String) (given default result : Entries) : Prop :=
  ∀ name ∈ names, result.lookup name = (given.lookup name).or (default.lookup name)

/-! ## Reading lays what is given over the defaults -/

theorem audio?_eq_some_iff {s : AudioSettings} :
    audio? v = some s ↔
      ∃ given, fieldsOf audioNames v = some given ∧
        Overlays audioNames given ({} : AudioSettings).entries s.entries := by
  simp only [audio?, Option.bind_eq_bind, Option.bind_eq_some_iff, Option.pure_def, Option.some_inj, word_iff_or,
    Overlays, audioNames, List.forall_mem_cons]
  constructor
  · rintro ⟨given, hgiven, duration, hduration, channels, hchannels, mask, hmask, flags, hflags, rfl⟩
    exact ⟨given, hgiven, hduration, hchannels, hmask, hflags, List.forall_mem_nil _⟩
  · rintro ⟨given, hgiven, hduration, hchannels, hmask, hflags, -⟩
    exact ⟨given, hgiven, s.packetDuration, hduration, s.channels, hchannels, s.channelMask, hmask, s.flags, hflags,
      rfl⟩

theorem video?_eq_some_iff {s : VideoSettings} :
    video? v = some s ↔
      ∃ given, fieldsOf videoNames v = some given ∧
        Overlays videoNames given ({} : VideoSettings).entries s.entries := by
  simp only [video?, Option.bind_eq_bind, Option.bind_eq_some_iff, Option.pure_def, Option.some_inj, word_iff_or,
    Overlays, videoNames, List.forall_mem_cons]
  constructor
  · rintro ⟨given, hgiven, width, hwidth, height, hheight, framerate, hframerate, bitrate, hbitrate, slices, hslices,
      refs, hrefs, color, hcolor, format, hformat, range, hrange, rfl⟩
    exact ⟨given, hgiven, hwidth, hheight, hframerate, hbitrate, hslices, hrefs, hcolor, hformat, hrange,
      List.forall_mem_nil _⟩
  · rintro ⟨given, hgiven, hwidth, hheight, hframerate, hbitrate, hslices, hrefs, hcolor, hformat, hrange, -⟩
    exact ⟨given, hgiven, s.width, hwidth, s.height, hheight, s.framerate, hframerate, s.bitrate, hbitrate,
      s.slicesPerFrame, hslices, s.refFrames, hrefs, s.colorMode, hcolor, s.format, hformat, s.dynamicRange, hrange,
      rfl⟩

/-- The names of the stream settings that are no groups. -/
def streamNumberNames : List String :=
  ["packet_size", "min_required_fec_packets", "feature_flags", "control_protocol_type", "audio_qos_type",
    "video_qos_type", "gcmap"]

theorem stream?_eq_some_iff {s : StreamSettings} :
    stream? v = some s ↔
      ∃ given, fieldsOf streamNames v = some given ∧
        Overlays streamNumberNames given ({} : StreamSettings).entries s.entries ∧
          setting audio? {} given "audio" = some s.audio ∧ setting video? {} given "video" = some s.video := by
  have hmap {given : Entries} {map : Option Int32} :
      setting (optional? number32?) none given "gcmap" = some map ↔ _ :=
    optional_iff_or (fun map : Int32 => .integer map.toInt) fun _ _ => number32?_eq_some_iff
  simp only [stream?, Option.bind_eq_bind, Option.bind_eq_some_iff, Option.pure_def, Option.some_inj, word_iff_or,
    number_iff_or, hmap, Overlays, streamNumberNames, List.forall_mem_cons, StreamSettings.lookup_gcmap]
  constructor
  · rintro ⟨given, hgiven, audio, haudio, video, hvideo, size, hsize, fec, hfec, flags, hflags, control, hcontrol,
      audioQos, haudioQos, videoQos, hvideoQos, map, hmap, rfl⟩
    exact ⟨given, hgiven, ⟨hsize, hfec, hflags, hcontrol, haudioQos, hvideoQos, hmap, List.forall_mem_nil _⟩, haudio,
      hvideo⟩
  · rintro ⟨given, hgiven, ⟨hsize, hfec, hflags, hcontrol, haudioQos, hvideoQos, hmap, -⟩, haudio, hvideo⟩
    exact ⟨given, hgiven, s.audio, haudio, s.video, hvideo, s.packetSize, hsize, s.minFecPackets, hfec, s.featureFlags,
      hflags, s.controlProtocol, hcontrol, s.audioQos, haudioQos, s.videoQos, hvideoQos, s.keyMap, hmap, rfl⟩

theorem segment?_eq_some_iff {s : SegmentSettings} :
    segment? v = some s ↔
      ∃ given, fieldsOf segmentNames v = some given ∧
        Overlays segmentNames given ({} : SegmentSettings).entries s.entries ∧ SegmentSettings.Fits s := by
  have hqueue : ({} : SegmentSettings).sizes.queueSize < 1 <<< 64 := by decide
  have hslot : ({} : SegmentSettings).sizes.slotSize < 1 <<< 64 := by decide
  have hevents : ({} : SegmentSettings).sizes.eventSlots < 1 <<< 64 := by decide
  simp only [segment?, Option.bind_eq_bind, Option.bind_eq_some_iff, Option.pure_def, Option.some_inj, text_iff_or,
    natural_iff_or hqueue, natural_iff_or hslot, natural_iff_or hevents, Overlays, segmentNames, List.forall_mem_cons]
  constructor
  · rintro ⟨given, hgiven, name, hname, queue, ⟨hqueue, hq⟩, slot, ⟨hslot, hs⟩, events, ⟨hevents, he⟩, rfl⟩
    exact ⟨given, hgiven, ⟨hname, hqueue, hslot, hevents, List.forall_mem_nil _⟩, hq, hs, he⟩
  · rintro ⟨given, hgiven, ⟨hname, hqueue, hslot, hevents, -⟩, hq, hs, he⟩
    exact ⟨given, hgiven, s.name, hname, s.sizes.queueSize, ⟨hqueue, hq⟩, s.sizes.slotSize, ⟨hslot, hs⟩,
      s.sizes.eventSlots, ⟨hevents, he⟩, rfl⟩

/-- The names of the settings of a host that are no groups. -/
def hostScalarNames : List String := ["poll_interval_ms", "shutdown_grace_secs", "min_log_level", "log_file"]

theorem host?_eq_some_iff {c : HostConfig} :
    host? es = some c ↔
      Overlays hostScalarNames es ({} : HostConfig).entries c.entries ∧
        setting segment? {} es "segment" = some c.segment ∧ setting stream? {} es "stream" = some c.stream := by
  have hpoll : ({} : HostConfig).pollInterval.toNat < 1 <<< 64 := by decide
  have hgrace : ({} : HostConfig).shutdownGrace.toNat < 1 <<< 64 := by decide
  have hlevel : ({} : HostConfig).minLogLevel.toNat < 1 <<< 8 := by decide
  have sameNumber {m n : Nat} (h : m = n) : some (Value.integer m) = some (.integer n) := by rw [h]
  have hfile {logFile : Option String} : setting (optional? text?) none es "log_file" = some logFile ↔ _ :=
    optional_iff_or .text fun _ _ => text?_eq_some_iff
  simp only [host?, Option.bind_eq_bind, Option.bind_eq_some_iff, Option.pure_def, Option.some_inj,
    natural_iff_or hpoll, natural_iff_or hgrace, natural_iff_or hlevel, hfile, Overlays, hostScalarNames,
    List.forall_mem_cons, HostConfig.lookup_logFile]
  constructor
  · rintro ⟨segment, hsegment, poll, ⟨hpoll, hp⟩, grace, ⟨hgrace, hg⟩, level, ⟨hlevel, hl⟩, logFile, hlogFile, stream,
      hstream, rfl⟩
    have epoll : (UInt64.ofNat poll).toNat = poll := UInt64.toNat_ofNat_of_lt' hp
    have egrace : (UInt64.ofNat grace).toNat = grace := UInt64.toNat_ofNat_of_lt' hg
    have elevel : (UInt8.ofNat level).toNat = level := UInt8.toNat_ofNat_of_lt' hl
    exact ⟨⟨(sameNumber epoll).trans hpoll, (sameNumber egrace).trans hgrace, (sameNumber elevel).trans hlevel,
      hlogFile, List.forall_mem_nil _⟩, hsegment, hstream⟩
  · rintro ⟨⟨hpoll, hgrace, hlevel, hlogFile, -⟩, hsegment, hstream⟩
    refine ⟨c.segment, hsegment, c.pollInterval.toNat, ⟨hpoll, c.pollInterval.toNat_lt⟩, c.shutdownGrace.toNat,
      ⟨hgrace, c.shutdownGrace.toNat_lt⟩, c.minLogLevel.toNat, ⟨hlevel, c.minLogLevel.toNat_lt⟩, c.logFile, hlogFile,
      c.stream, hstream, ?_⟩
    rw [UInt64.ofNat_toNat, UInt64.ofNat_toNat, UInt8.ofNat_toNat]

/-! ## A configuration is read again from its table -/

theorem overlays_nil {names : List String} (default : Entries) : Overlays names [] default default :=
  fun _ _ => (Option.none_or).symm

theorem overlays_audio (s : AudioSettings) :
    Overlays audioNames s.entries ({} : AudioSettings).entries s.entries := by
  simp only [Overlays, audioNames, List.forall_mem_cons]
  exact ⟨rfl, rfl, rfl, rfl, List.forall_mem_nil _⟩

theorem overlays_video (s : VideoSettings) :
    Overlays videoNames s.entries ({} : VideoSettings).entries s.entries := by
  simp only [Overlays, videoNames, List.forall_mem_cons]
  exact ⟨rfl, rfl, rfl, rfl, rfl, rfl, rfl, rfl, rfl, List.forall_mem_nil _⟩

theorem overlays_stream (s : StreamSettings) :
    Overlays streamNumberNames s.entries ({} : StreamSettings).entries s.entries := by
  simp only [Overlays, streamNumberNames, List.forall_mem_cons]
  exact ⟨rfl, rfl, rfl, rfl, rfl, rfl, Option.or_none.symm, List.forall_mem_nil _⟩

theorem overlays_segment (s : SegmentSettings) :
    Overlays segmentNames s.entries ({} : SegmentSettings).entries s.entries := by
  simp only [Overlays, segmentNames, List.forall_mem_cons]
  exact ⟨rfl, rfl, rfl, rfl, List.forall_mem_nil _⟩

theorem overlays_host (c : HostConfig) : Overlays hostScalarNames c.entries ({} : HostConfig).entries c.entries := by
  simp only [Overlays, hostScalarNames, List.forall_mem_cons]
  exact ⟨rfl, rfl, rfl, Option.or_none.symm, List.forall_mem_nil _⟩

/-- The table of a configuration is read as any configuration with the same settings. -/
theorem host?_of_overlays {c c' : HostConfig} (hfits : c.segment.Fits)
    (hhost : Overlays hostScalarNames c'.entries ({} : HostConfig).entries c.entries)
    (hsegment : Overlays segmentNames c'.segment.entries ({} : SegmentSettings).entries c.segment.entries)
    (hstream : Overlays streamNumberNames c'.stream.entries ({} : StreamSettings).entries c.stream.entries)
    (haudio : Overlays audioNames c'.stream.audio.entries ({} : AudioSettings).entries c.stream.audio.entries)
    (hvideo : Overlays videoNames c'.stream.video.entries ({} : VideoSettings).entries c.stream.video.entries) :
    host? c'.entries = some c := by
  have haudio : audio? (.table .header c'.stream.audio.entries) = some c.stream.audio :=
    audio?_eq_some_iff.2 ⟨_, rfl, haudio⟩
  have hvideo : video? (.table .header c'.stream.video.entries) = some c.stream.video :=
    video?_eq_some_iff.2 ⟨_, rfl, hvideo⟩
  have hstream : stream? (.table .header c'.stream.entries) = some c.stream :=
    stream?_eq_some_iff.2 ⟨_, rfl, hstream, (setting_of_lookup c'.stream.lookup_audio).trans haudio,
      (setting_of_lookup c'.stream.lookup_video).trans hvideo⟩
  have hsegment : segment? (.table .header c'.segment.entries) = some c.segment :=
    segment?_eq_some_iff.2 ⟨_, rfl, hsegment, hfits⟩
  exact host?_eq_some_iff.2 ⟨hhost, (setting_of_lookup c'.lookup_segment).trans hsegment,
    (setting_of_lookup c'.lookup_stream).trans hstream⟩

/-- So it is read as the configuration itself. -/
theorem host?_entries {c : HostConfig} (h : c.segment.Fits) : host? c.entries = some c :=
  host?_of_overlays h (overlays_host c) (overlays_segment _) (overlays_stream _) (overlays_audio _) (overlays_video _)

end Config

/-- What it takes for a text to be accepted. -/
theorem HostConfig.ofText_eq_ok_iff {text : String} {c : HostConfig} :
    ofText text = .ok c ↔
      ∃ d es, Toml.Document.ofText? text.toList = some d ∧ d.entries? = some es ∧ Config.host? es = some c ∧
        c.validate = .ok () := by
  constructor
  · intro h
    have hv := validate_of_ofText h
    unfold ofText at h
    split at h
    · cases h
    next es hes =>
    split at h
    · cases h
    next config hc =>
    obtain ⟨d, hd, hes⟩ := Option.bind_eq_some_iff.1 hes
    cases hvalid : config.validate with
    | error e =>
      rw [hvalid] at h
      cases h
    | ok =>
      rw [hvalid] at h
      cases h
      exact ⟨d, es, hd, hes, hc, hv⟩
  · rintro ⟨d, es, hd, hes, hc, hv⟩
    rw [ofText, Toml.entriesOfText?, hd, Option.bind_some, hes]
    simp only [hc, hv]
    rfl

end MediaChannels
