import MediaChannels.Proofs.Channel.Fresh

/-!
# What a channel shows

The active flag, the codec and the display selector of a channel are what was set last. Nothing else that can be asked
of the channel changes them.

* `Channel.Shows.run_isActive`, `Channel.Shows.run_codec`, `Channel.Shows.run_display`: what is read is what is shown.
* `Channel.Shows.perform`: a call shows the value that it sets, if it sets one and succeeds; the others stay.
* `Channel.shows_of_fresh`: before anything is set, a channel is idle, without codec and without display selector.
-/

namespace MediaChannels

namespace ChannelCall

variable {α : Type}

/-- The active flag that a call sets. -/
def activeSet? : ChannelCall α → Option Bool
  | setActive active | clientSetActive active => some active
  | _ => none

/-- The codec that a call sets. -/
def codecSet? : ChannelCall α → Option Int32
  | setCodec value => some value
  | _ => none

/-- The display selector that a call sets; one that is too long is refused. -/
def displaySet? : ChannelCall α → Option String
  | setDisplay text => if (Utf8.encode text).length ≤ Layout.displayCapacity then some text else none
  | _ => none

end ChannelCall

namespace Channel

open Access

/-- What stands in the memory of a channel: an active flag, a codec, and a display selector that is not torn. -/
structure Shows (channel : Channel) (active : Bool) (codec : Int32) (display : String) (m : Memory) : Prop where
  active_eq : m.read channel.base 1 = [if active then 1 else 0]
  codec_eq : m.word32 channel.codecAt = codec.toUInt32
  display_eq : ∃ frame, channel.displayLock.contents m = some frame ∧ frame.data = Utf8.encode display

variable {sizes : Sizes} {hv : sizes.Valid} {kind : ChannelKind} {m m' : Memory} {active : Bool} {codec : Int32}
  {display : String}

namespace Shows

variable {channel : Channel}

/-! ## Reading -/

theorem run_isActive (h : channel.Shows active codec display m) : channel.isActive.run m = (active, m) := by
  rw [Channel.run_isActive, h.active_eq]
  cases active <;> rfl

theorem run_codec (h : channel.Shows active codec display m) : channel.codec.run m = (codec, m) := by
  simp only [Channel.codec, run_bind, run_word32, run_pure, h.codec_eq]
  rfl

/-- The empty selector is none. -/
theorem run_display (h : channel.Shows active codec display m) :
    channel.display.run m = (if display = "" then none else some display, m) := by
  obtain ⟨frame, hframe, hdata⟩ := h.display_eq
  rw [Channel.run_display, hframe, Option.filter_some, hdata]
  by_cases he : display = ""
  · rw [if_pos he, he, Utf8.encode_empty]
    rfl
  · have hne : (Utf8.encode display).isEmpty = false := by
      rw [List.isEmpty_eq_false_iff]
      exact fun h => he (Utf8.encode_eq_nil_iff.1 h)
    simp only [hne, Bool.not_false, if_true, Option.map_some, hdata, Utf8.decodeLossy_encode, if_neg he]

end Shows

/-! ## Calls -/

namespace Shows

theorem active_congr (h : (sizes.channel kind).Shows active codec display m)
    (ha : Memory.Agree (ChannelPart.active.start sizes kind) (ChannelPart.active.stop sizes kind) m' m) :
    m'.read (sizes.channel kind).base 1 = [if active then 1 else 0] :=
  (ha.read _ _ (Nat.le_refl _) (Nat.le_refl _)).trans h.active_eq

theorem codec_congr (h : (sizes.channel kind).Shows active codec display m)
    (ha : Memory.Agree (ChannelPart.codec.start sizes kind) (ChannelPart.codec.stop sizes kind) m' m) :
    m'.word32 (sizes.channel kind).codecAt = codec.toUInt32 :=
  (ha.word32 _ (Nat.le_refl _) (Nat.le_refl _)).trans h.codec_eq

theorem display_congr (h : (sizes.channel kind).Shows active codec display m)
    (hready : (sizes.channel kind).DisplayReady m')
    (ha : Memory.Agree (ChannelPart.display.start sizes kind) (ChannelPart.display.stop sizes kind) m' m) :
    ∃ frame, (sizes.channel kind).displayLock.contents m' = some frame ∧ frame.data = Utf8.encode display := by
  rw [Seqlock.contents_congr ha (payload_end_le_stop (Nat.le_of_eq hready))]
  exact h.display_eq

/-- What a channel shows depends only on the bytes of three of its parts. -/
theorem congr (h : (sizes.channel kind).Shows active codec display m) (hready : (sizes.channel kind).DisplayReady m')
    (ha : ∀ part ∈ [ChannelPart.active, .codec, .display],
      Memory.Agree (part.start sizes kind) (part.stop sizes kind) m' m) :
    (sizes.channel kind).Shows active codec display m' :=
  ⟨h.active_congr (ha _ (by decide)), h.codec_congr (ha _ (by decide)), h.display_congr hready (ha _ (by decide))⟩

/-- A selector that is short enough is shown from now on. -/
theorem contents_setDisplay (h : (sizes.channel kind).Shows active codec display m)
    (hready : (sizes.channel kind).DisplayReady m) {text : String}
    (hl : (Utf8.encode text).length ≤ Layout.displayCapacity) :
    ∃ frame, (sizes.channel kind).displayLock.contents (((sizes.channel kind).setDisplay text).run m).2 = some frame ∧
      frame.data = Utf8.encode text := by
  obtain ⟨frame, hframe, -⟩ := h.display_eq
  have htorn : ¬(sizes.channel kind).displayLock.Torn m := by
    intro ht
    rw [Seqlock.contents, if_pos ht] at hframe
    cases hframe
  have hlt : (sizes.channel kind).displayLock.capacityIn m < 2 ^ 32 := by
    rw [hready]
    decide
  rw [run_setDisplay _ hl, Seqlock.contents_run_write _ _ hlt, if_neg htorn, cut_selector hready hl]
  exact ⟨_, rfl, rfl⟩

/-- **A call shows the value that it sets, if it sets one and succeeds; the others stay.** -/
theorem perform {α : Type} {handle : ChannelHandle} (h : (sizes.channel kind).Shows active codec display m)
    (hready : ∀ q : ChannelPart, q.Ready hv kind m) (hhandle : handle.channel = sizes.channel kind)
    (call : ChannelCall α) :
    (sizes.channel kind).Shows (call.activeSet?.getD active) (call.codecSet?.getD codec) (call.displaySet?.getD display)
      ((call.perform handle).run m).2 := by
  obtain ⟨hwithin, hready'⟩ := ChannelCall.perform_sound hready hhandle call
  have hother {part : ChannelPart} (hp : part ∉ call.parts) :
      Memory.Agree (part.start sizes kind) (part.stop sizes kind) ((call.perform handle).run m).2 m :=
    ChannelPart.agree_part_of_within hwithin (.inr hp)
  have hbut {part q : ChannelPart} (hparts : call.parts = [q]) (hne : part ≠ q) :
      Memory.Agree (part.start sizes kind) (part.stop sizes kind) ((call.perform handle).run m).2 m :=
    hother (by rw [hparts, List.mem_singleton]; exact hne)
  have hsame (hm : ((call.perform handle).run m).2 = m) :
      (sizes.channel kind).Shows active codec display ((call.perform handle).run m).2 := by rwa [hm]
  cases call with
  | isActive => exact hsame rfl
  | codec => exact hsame rfl
  | display => exact hsame (by rw [ChannelCall.perform, Channel.run_display])
  | status => exact hsame (Channel.run_status_snd _ m)
  | clientIsActive => exact hsame rfl
  | setActive value =>
    refine ⟨?_, h.codec_congr (hbut rfl (by decide)), h.display_congr (hready' .display) (hbut rfl (by decide))⟩
    simp only [ChannelCall.perform, hhandle]
    exact Memory.read_write m _ [_]
  | clientSetActive value =>
    refine ⟨?_, h.codec_congr (hbut rfl (by decide)), h.display_congr (hready' .display) (hbut rfl (by decide))⟩
    simp only [ChannelCall.perform, Client.setActive, hhandle]
    exact Memory.read_write m _ [_]
  | setCodec value =>
    refine ⟨h.active_congr (hbut rfl (by decide)), ?_, h.display_congr (hready' .display) (hbut rfl (by decide))⟩
    simp only [ChannelCall.perform, hhandle]
    exact Memory.word32_write_bytes32 _ _ _
  | setDisplay text =>
    refine ⟨h.active_congr (hbut rfl (by decide)), h.codec_congr (hbut rfl (by decide)), ?_⟩
    simp only [ChannelCall.perform, ChannelCall.displaySet?, hhandle]
    by_cases hl : (Utf8.encode text).length ≤ Layout.displayCapacity
    · rw [if_pos hl]
      exact h.contents_setDisplay (hready .display) hl
    · rw [if_neg hl, run_setDisplay_of_lt _ (Nat.not_le.1 hl)]
      exact h.display_eq
  | _ =>
    -- The rest of the calls name lanes or the ring.
    refine h.congr (hready' .display) fun part hmem => hother fun hp => ?_
    simp only [ChannelCall.parts, List.mem_cons, List.not_mem_nil, or_false, List.mem_map] at hmem hp
    rcases hmem with rfl | rfl | rfl <;> simp at hp

end Shows

/-- **Before anything is set, a channel is idle, without codec and without display selector.** -/
theorem shows_of_fresh (h : ∀ part : ChannelPart, part.Fresh hv kind m) :
    (sizes.channel kind).Shows false 0 "" m := by
  obtain ⟨-, htorn, hlength⟩ := h .display
  refine ⟨h .active, h .codec, ?_⟩
  rw [Seqlock.contents, if_neg htorn]
  refine ⟨_, rfl, ?_⟩
  rw [Utf8.encode_empty]
  apply List.eq_nil_of_length_eq_zero
  simp [Seqlock.frameIn, hlength]

end Channel

end MediaChannels
