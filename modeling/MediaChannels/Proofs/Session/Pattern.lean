import Mathlib
import MediaChannels.Config.Reader
import MediaChannels.Proofs.Mail.Uses
import MediaChannels.Session.Capture

/-!
# The sizes of test pattern frames

A frame of video has the size that the bitrate and the framerate ask for, whatever these are, and follows the bitrate
that was requested last. A frame of audio has the size that the settings ask for as long as that is less than `2 ^ 32`:
it is computed in words of 32 bits.

* `frameBytes_eq`, `frameBytes_eq_toNat`: the size of a video frame, and that 64 bits are enough for it.
* `audioBytes_eq`: the size of an audio frame, modulo `2 ^ 32`.
* `value_of_capture`, `queueUnder_capture`: what `capture` reads from a mailbox, and what it leaves there.
* `PatternRun.Sound`, `Sound.turn`, `Sound.run`: a run knows the bitrate that was requested last.
* `PatternRun.captured_sizes`: the sizes of all frames of all runs; `PatternRun.captured_size_wraps`: a run whose frames
  are too small.
-/

namespace MediaChannels

/-- A positive number stays the same without its sign. -/
theorem toNat_toUInt32_of_pos {n : Int32} (h : 0 < n) : (n.toUInt32.toNat : Int) = n.toInt := by
  have hpos : 0 < n.toUInt32.toBitVec.toInt := by simpa [Int32.lt_iff_toInt_lt] using h
  have hlt := n.toUInt32.toBitVec.isLt
  show (n.toUInt32.toBitVec.toNat : Int) = n.toUInt32.toBitVec.toInt
  rw [BitVec.toInt_eq_toNat_cond] at hpos ⊢
  split at hpos <;> split <;> omega

namespace TestPattern

/-! ## Sizes -/

theorem toNat_max_one (n : UInt32) : (max n 1).toNat = max n.toNat 1 := by
  rw [show max n 1 = if n ≤ 1 then 1 else n from rfl]
  split
  · next hle => exact (Nat.max_eq_right (UInt32.le_iff_toNat_le.1 hle)).symm
  · next hlt => exact (Nat.max_eq_left (Nat.le_of_lt (Nat.lt_of_not_le (mt UInt32.le_iff_toNat_le.2 hlt)))).symm

theorem toNat_pace (s : VideoSettings) : (pace s).toNat = max s.framerate.toNat 1 := toNat_max_one s.framerate

/-- **Bytes of a video frame**: a kilobit is 125 bytes. -/
theorem frameBytes_eq (kbps fps : UInt32) : frameBytes kbps fps = max 1 (kbps.toNat * 125 / fps.toNat) := by
  rw [frameBytes, show 1000 = 125 * 8 from rfl, ← Nat.mul_assoc, Nat.mul_div_cancel _ (by decide)]

/-- Words of 64 bits are enough to compute them. -/
theorem frameBytes_eq_toNat (kbps fps : UInt32) :
    kbps.toNat * 1000 < 2 ^ 64 ∧
      frameBytes kbps fps = max 1 (kbps.toUInt64 * 1000 / 8 / fps.toUInt64).toNat := by
  have hkbps := kbps.toNat_lt
  have hfits : kbps.toNat * 1000 < 2 ^ 64 := by omega
  refine ⟨hfits, ?_⟩
  rw [frameBytes, UInt64.toNat_div, UInt64.toNat_div, UInt64.toNat_mul]
  simp only [UInt32.toNat_toUInt64, UInt64.reduceToNat, Nat.mod_eq_of_lt hfits]

/-- **Bytes of an audio frame**, modulo `2 ^ 32`. -/
theorem audioBytes_eq (s : AudioSettings) :
    audioBytes s = 96 * max s.packetDuration.toNat 1 * s.channels.toNat % 2 ^ 32 := by
  have hfactors (n m : Nat) : 48 * n * m * 2 = 96 * n * m := by
    rw [Nat.mul_comm _ 2, ← Nat.mul_assoc, ← Nat.mul_assoc]
  simp only [audioBytes, UInt32.toNat_mul, toNat_max_one, UInt32.reduceToNat, Nat.mod_mul_mod, hfactors]

/-- The size of an audio frame is what the settings ask for exactly if a word of 32 bits can hold it. -/
theorem audioBytes_exact_iff (s : AudioSettings) :
    audioBytes s = 96 * max s.packetDuration.toNat 1 * s.channels.toNat ↔
      96 * max s.packetDuration.toNat 1 * s.channels.toNat < 2 ^ 32 := by
  rw [audioBytes_eq, Nat.mod_eq_iff_lt (by decide)]

/-! ## One frame -/

variable {o : Office} {mailbox : Nat}

/-- **What a pattern takes up** is the value that stands under the key of the bitrate. -/
theorem value_of_capture (hm : mailbox < o.mailboxes.size) :
    ((o.event mailbox .number MailKey.bitrate.text).2.latch .number
      (o.event mailbox .number MailKey.bitrate.text).1).value = o.valueOf mailbox .number MailKey.bitrate.text := by
  rw [← o.valueOf_event mailbox .number MailKey.bitrate.text, Office.valueOf, o.lookup_event hm, Option.bind_some]

/-- The pattern after a frame. -/
theorem capture_fst (p : TestPattern) (s : StreamSettings) (kind : ChannelKind) (hm : mailbox < o.mailboxes.size) :
    (p.capture s kind mailbox o).1 = (p.follow kind (o.valueOf mailbox .number MailKey.bitrate.text)).next := by
  rw [← value_of_capture hm]
  rfl

/-- What is pushed into the queue that a mailbox has under a key is found there. -/
theorem queueUnder_push (h : o.Orderly) (hm : mailbox < o.mailboxes.size) (key : String) (a : Packet) :
    let o' := (o.queueOf mailbox .packet key).2
    let number := (o.queueOf mailbox .packet key).1
    (o'.setQueue .packet number ((o'.queue .packet number).push a)).queueUnder mailbox .packet key =
      (o.queueUnder mailbox .packet key).push a := by
  intro o' number
  have hl : (o'.mailbox mailbox).queues.lookup (key, .packet) = some number :=
    (o.lookup_queues_queueOf _ _ _ _ _).trans (if_pos ⟨rfl, hm, rfl⟩)
  rw [Office.queueUnder_setQueue (h.queueOf _ _ _), if_pos hl, Office.queue_queueOf, Office.queue_queueOf_self]

/-- **The frame goes into the queue that feeds the channel.** -/
theorem queueUnder_capture (p : TestPattern) (s : StreamSettings) (kind : ChannelKind) (h : o.Orderly)
    (hm : mailbox < o.mailboxes.size) :
    (p.capture s kind mailbox o).2.queueUnder mailbox .packet (MailKey.packetQueue kind).text =
      (o.queueUnder mailbox .packet (MailKey.packetQueue kind).text).push
        ((p.follow kind (o.valueOf mailbox .number MailKey.bitrate.text)).frame s kind) := by
  have hm' : mailbox < (o.event mailbox .number MailKey.bitrate.text).2.mailboxes.size :=
    Nat.lt_of_lt_of_le hm (o.extends_event _ _ _).size_le
  rw [← value_of_capture hm, ← o.queueUnder_event mailbox .number MailKey.bitrate.text mailbox]
  exact queueUnder_push (h.event _ _ _) hm' _ _

/-- Of the office, a frame changes one queue. -/
theorem exists_capture_snd (p : TestPattern) (s : StreamSettings) (kind : ChannelKind) (mailbox : Nat) (o : Office) :
    ∃ number queue, (p.capture s kind mailbox o).2 = Office.setQueue
      ((o.event mailbox .number MailKey.bitrate.text).2.queueOf mailbox .packet (MailKey.packetQueue kind).text).2
        .packet number queue := ⟨_, _, rfl⟩

theorem orderly_capture (p : TestPattern) (s : StreamSettings) (kind : ChannelKind) (h : o.Orderly) :
    (p.capture s kind mailbox o).2.Orderly := by
  obtain ⟨number, queue, hafter⟩ := p.exists_capture_snd s kind mailbox o
  rw [hafter]
  exact ((h.event _ _ _).queueOf _ _ _).setQueue _ _ _

theorem size_capture (p : TestPattern) (s : StreamSettings) (kind : ChannelKind) (o : Office) :
    o.mailboxes.size ≤ (p.capture s kind mailbox o).2.mailboxes.size := by
  obtain ⟨number, queue, hafter⟩ := p.exists_capture_snd s kind mailbox o
  have hqueue (office : Office) : (office.setQueue .packet number queue).mailboxes = office.mailboxes := rfl
  rw [hafter, hqueue]
  exact Nat.le_trans (o.extends_event _ _ _).size_le (Office.extends_queueOf _ _ _ _).size_le

/-- Making a frame changes no value. -/
theorem valueOf_capture (p : TestPattern) (s : StreamSettings) (kind : ChannelKind) (o : Office) (m : Nat)
    (t : ItemType) (key : String) : (p.capture s kind mailbox o).2.valueOf m t key = o.valueOf m t key := by
  obtain ⟨number, queue, hafter⟩ := p.exists_capture_snd s kind mailbox o
  have hqueue (office : Office) : (office.setQueue .packet number queue).valueOf m t key = office.valueOf m t key := rfl
  rw [hafter, hqueue, Office.valueOf_queueOf, Office.valueOf_event]

end TestPattern

/-! ## Requests -/

namespace MailUse

variable {o : Office}

/-- The bitrate that a use requests from a mailbox. -/
def bitrateFor (o : Office) (mailbox : Nat) : MailUse → Option Int32
  | raise .number number kbps =>
    if (o.mailbox mailbox).events.lookup (MailKey.bitrate.text, .number) = some number then some kbps else none
  | _ => none

/-- **What stands under the key of the bitrate changes by requests only.** -/
theorem valueOf_perform (h : o.Orderly) (use : MailUse) (mailbox : Nat) :
    (use.perform o).valueOf mailbox .number MailKey.bitrate.text =
      (use.bitrateFor o mailbox).or (o.valueOf mailbox .number MailKey.bitrate.text) := by
  cases use with
  | addMailbox =>
    simp only [perform, Office.valueOf, Office.mailbox_addMailbox]
    rfl
  | addEvent t =>
    have hlatch : (o.addEvent t).2.latch .number = o.latch .number := funext (o.latch_addEvent t .number)
    rw [perform, Office.valueOf, hlatch]
    rfl
  | addQueue t => rfl
  | event m t key => exact o.valueOf_event m t key mailbox .number _
  | queueOf m t key => exact o.valueOf_queueOf m t key mailbox .number _
  | onQueue t number use => rfl
  | raise t number value =>
    by_cases ht : t = .number
    · subst ht
      rw [perform, Office.valueOf, Office.valueOf, bitrateFor]
      show ((o.mailbox mailbox).events.lookup _).bind _ = _
      cases hl : (o.mailbox mailbox).events.lookup (MailKey.bitrate.text, .number) with
      | none => rfl
      | some number' =>
        have hlt := h.regular mailbox .number _ number' hl
        rw [Option.bind_some, Option.bind_some, Office.latch_raise]
        by_cases hn : number' = number
        · rw [if_pos ⟨hn, hn ▸ hlt⟩, if_pos (by rw [hn]), Option.some_or]
        · rw [if_neg fun hc => hn hc.1, if_neg fun hc => hn (Option.some.inj hc), Option.none_or]
    · have hlatch : (o.raise t number value).latch .number = o.latch .number :=
        funext (o.latch_raise_of_ne ht number value)
      have hnone : (raise t number value).bitrateFor o mailbox = none := by
        cases t <;> first | rfl | exact absurd rfl ht
      rw [hnone, Option.none_or, perform, Office.valueOf, hlatch]
      rfl

end MailUse

/-! ## Runs -/

/-- What happens while a test pattern runs. -/
inductive PatternTurn where
  /-- A thread uses mailboxes. -/
  | mail (use : MailUse)
  /-- The pattern makes its next frame. -/
  | frame

/-- A test pattern, the office, and the bitrate that was requested last. -/
structure PatternRun where
  pattern : TestPattern
  office : Office
  requested : Option Int32

namespace PatternRun

variable (s : StreamSettings) (kind : ChannelKind) (mailbox : Nat)

/-- A pattern at its beginning. -/
def start (office : Office) : PatternRun :=
  { pattern := .start s, office, requested := office.valueOf mailbox .number MailKey.bitrate.text }

/-- One turn. -/
def turn (r : PatternRun) : PatternTurn → PatternRun
  | .mail use =>
    { r with office := use.perform r.office, requested := (use.bitrateFor r.office mailbox).or r.requested }
  | .frame =>
    let (pattern, office) := r.pattern.capture s kind mailbox r.office
    { r with pattern, office }

/-- All turns, one after the other. -/
def run (r : PatternRun) (turns : List PatternTurn) : PatternRun := turns.foldl (turn s kind mailbox) r

/-- The bitrate of the next frame: the one that was requested last, or else that of the settings. -/
def kbps (r : PatternRun) : UInt32 := (r.requested.map Int32.toUInt32).getD s.video.bitrate

/-- What holds in every run. -/
structure Sound (r : PatternRun) : Prop where
  orderly : r.office.Orderly
  lt_size : mailbox < r.office.mailboxes.size
  value_eq : r.office.valueOf mailbox .number MailKey.bitrate.text = r.requested
  kbps_eq : r.requested = none → r.pattern.kbps = s.video.bitrate

variable {s kind mailbox} {r : PatternRun}

namespace Sound

theorem start {office : Office} (h : office.Orderly) (hm : mailbox < office.mailboxes.size) :
    Sound s mailbox (.start s mailbox office) := ⟨h, hm, rfl, fun _ => rfl⟩

/-- **Every turn keeps the invariant.** -/
theorem turn (h : Sound s mailbox r) (t : PatternTurn) : Sound s mailbox (r.turn s kind mailbox t) := by
  cases t with
  | mail use =>
    refine ⟨use.orderly_perform h.orderly, Nat.lt_of_lt_of_le h.lt_size (use.extends_perform _).size_le, ?_, ?_⟩
    · exact (use.valueOf_perform h.orderly mailbox).trans (by rw [h.value_eq]; rfl)
    · exact fun hnone => h.kbps_eq (Option.or_eq_none_iff.1 hnone).2
  | frame =>
    refine ⟨TestPattern.orderly_capture _ _ _ h.orderly,
      Nat.lt_of_lt_of_le h.lt_size (TestPattern.size_capture _ _ _ _), ?_, fun hnone => ?_⟩
    · exact (TestPattern.valueOf_capture _ _ _ _ _ _ _).trans h.value_eq
    · replace hnone : r.requested = none := hnone
      show (r.pattern.capture s kind mailbox r.office).1.kbps = _
      rw [TestPattern.capture_fst _ _ _ h.lt_size, h.value_eq, hnone]
      exact h.kbps_eq hnone

theorem run (h : Sound s mailbox r) (turns : List PatternTurn) : Sound s mailbox (r.run s kind mailbox turns) := by
  induction turns generalizing r with
  | nil => exact h
  | cons t turns ih => exact ih (h.turn t)

/-- A pattern of video makes its next frame with the bitrate that was requested last. -/
theorem kbps_follow (h : Sound s mailbox r) (hvideo : kind.isVideo = true) :
    (r.pattern.follow kind r.requested).kbps = r.kbps s := by
  cases hrequested : r.requested with
  | none =>
    rw [kbps, hrequested]
    exact h.kbps_eq hrequested
  | some v => simp [kbps, hrequested, TestPattern.follow, hvideo]

end Sound

/-- **The sizes of all frames of all runs**, whatever the settings are and whatever else is done with the mailboxes. The
next frame goes into the packet queue. One of video has the size that the framerate asks for and the bitrate, which is
the one that was requested last, or else that of the settings; words of 64 bits are enough to compute it, and nothing is
divided by zero. One of audio has the size that the settings ask for, modulo `2 ^ 32`. -/
theorem captured_sizes (s : StreamSettings) (kind : ChannelKind) {mailbox : Nat} {office : Office}
    (h : office.Orderly) (hm : mailbox < office.mailboxes.size) (turns : List PatternTurn) :
    let r := run s kind mailbox (start s mailbox office) turns
    let key := (MailKey.packetQueue kind).text
    let fps := max s.video.framerate.toNat 1
    let audio := 96 * max s.audio.packetDuration.toNat 1 * s.audio.channels.toNat
    (∃ frame : Packet,
      (r.turn s kind mailbox .frame).office.queueUnder mailbox .packet key =
        (r.office.queueUnder mailbox .packet key).push frame ∧
      (kind.isVideo = true → frame.data.length = max 1 ((r.kbps s).toNat * 125 / fps)) ∧
      (kind.isVideo = false → frame.data.length = audio % 2 ^ 32 ∧ (frame.data.length = audio ↔ audio < 2 ^ 32))) ∧
    (r.requested = none → r.kbps s = s.video.bitrate) ∧
    (∀ v, r.requested = some v → 0 < v → ((r.kbps s).toNat : Int) = v.toInt) ∧
    (r.kbps s).toNat * 1000 < 2 ^ 64 ∧ (TestPattern.pace s.video).toNat = fps ∧ 0 < fps ∧
    TestPattern.frameBytes (r.kbps s) (TestPattern.pace s.video) =
      max 1 ((r.kbps s).toUInt64 * 1000 / 8 / (TestPattern.pace s.video).toUInt64).toNat := by
  intro r key fps audio
  have hr : Sound s mailbox r := (Sound.start h hm).run turns
  obtain ⟨hfits, hwords⟩ := TestPattern.frameBytes_eq_toNat (r.kbps s) (TestPattern.pace s.video)
  refine ⟨⟨(r.pattern.follow kind r.requested).frame s kind, ?_, fun hvideo => ?_, fun haudio => ?_⟩, fun hnone => ?_,
    fun v hv hpos => ?_, hfits, TestPattern.toNat_pace s.video, Nat.le_max_right _ _, hwords⟩
  · rw [← hr.value_eq]
    exact TestPattern.queueUnder_capture r.pattern s kind hr.orderly hr.lt_size
  · rw [TestPattern.length_frame, TestPattern.size, if_pos hvideo, hr.kbps_follow hvideo, TestPattern.frameBytes_eq,
      TestPattern.toNat_pace]
  · rw [TestPattern.length_frame, TestPattern.size, if_neg (by simp [haudio])]
    exact ⟨TestPattern.audioBytes_eq s.audio, TestPattern.audioBytes_exact_iff s.audio⟩
  · rw [kbps, hnone]
    rfl
  · rw [kbps, hv]
    exact toNat_toUInt32_of_pos hpos

/-- Without any settings, a second frame of video after a bitrate of 4800 was requested has 10000 bytes. -/
theorem captured_sizes_requested :
    let turns : List PatternTurn := [.frame, .mail (.raise .number 0 (4800 : Int32))]
    let r := run {} .video0 0 (start {} 0 Office.empty.addMailbox.2) turns
    ∃ frame : Packet,
      (r.turn {} .video0 0 .frame).office.queueUnder 0 .packet MailKey.videoPackets.text =
        (r.office.queueUnder 0 .packet MailKey.videoPackets.text).push frame ∧
      frame.data.length = 10000 ∧ ((r.kbps {}).toNat : Int) = 4800 := by
  obtain ⟨⟨frame, hpush, hvideo, -⟩, -, hkbps, -⟩ :=
    captured_sizes {} .video0 Office.orderly_empty.addMailbox (Nat.zero_lt_one)
      [.frame, .mail (.raise .number 0 (4800 : Int32))]
  exact ⟨frame, hpush, hvideo rfl, hkbps 4800 rfl (by decide)⟩

/-- Settings that are accepted, with which an audio packet would have 55834574880 bytes. -/
def wideAudio : StreamSettings := { audio := { channels := 116322031 } }

/-- **Audio frames can be too small**: the size of these is computed as 32. That is so where words wrap around without a
check; a build that checks for overflow panics at this product. -/
theorem captured_size_wraps :
    HostConfig.ofText "[stream.audio]\nchannels = 116322031\n" = .ok { stream := wideAudio } ∧
      96 * max wideAudio.audio.packetDuration.toNat 1 * wideAudio.audio.channels.toNat = 55834574880 ∧
      ((turn wideAudio .audio 0 (start wideAudio 0 Office.empty.addMailbox.2) .frame).office.queueUnder 0 .packet
        MailKey.audioPackets.text).items.map (·.data.length) = [32] := by
  exact ⟨by cbv, by decide, by decide⟩

end PatternRun

end MediaChannels
