import MediaChannels.Proofs.Channel.Calls

/-!
# Channels that were just set up

The blocks of a channel are set up from the first to the last, and each of them lies behind the one before, so none of
the loops over lanes and slots writes into what is already there.

* `Channel.init_storesIn`: setting up a channel stays inside of it.
* `ChannelPart.fresh_init`: afterwards every part is as it should be; the bytes of the display selector are those that
  were there before.
* `ChannelPart.Fresh.ready`: in particular it carries its sizes.
-/

namespace MediaChannels

namespace ChannelPart

variable {sizes : Sizes} {hv : sizes.Valid} {kind : ChannelKind} {m m' : Memory}

/-- A part as it is before anybody has used it. -/
def Fresh (hv : sizes.Valid) (kind : ChannelKind) (m : Memory) : ChannelPart → Prop
  | active => m.read (sizes.channel kind).base 1 = [0]
  | codec => m.word32 (sizes.channel kind).codecAt = 0
  | display =>
    (sizes.channel kind).DisplayReady m ∧ ¬(sizes.channel kind).displayLock.Torn m ∧
      m.word32 ((sizes.channel kind).displayLock.frameAt + 8) = 0
  | lane k => ((sizes.channel kind).events.lane k).Fresh sizes.eventSlots m
  | packets => (sizes.channel kind).packets.SetUp hv.geometry m ∧ m.word64 (sizes.channel kind).packets.base = 0

/-- A fresh part carries its sizes. -/
theorem Fresh.ready {part : ChannelPart} (h : part.Fresh hv kind m) : part.Ready hv kind m := by
  cases part with
  | active => trivial
  | codec => trivial
  | display => exact h.1
  | lane k => exact h.holds.sized
  | packets => exact h.1

/-- Where the length of the display selector stands. -/
theorem length_bounds (sizes : Sizes) (kind : ChannelKind) :
    display.start sizes kind ≤ (sizes.channel kind).displayLock.frameAt + 8 ∧
      (sizes.channel kind).displayLock.frameAt + 8 + 4 ≤ display.stop sizes kind := by
  have hpayload : (sizes.channel kind).displayLock.payloadAt + 0 ≤ display.stop sizes kind :=
    Channel.payload_end_le_stop (Nat.zero_le _)
  simp only [Seqlock.payloadAt, Seqlock.frameHeaderSize] at hpayload
  exact ⟨Nat.le_trans (Nat.le_add_right _ _) (Nat.le_add_right _ _), by omega⟩

/-- Only the bytes of a part matter for whether it is fresh. -/
theorem Fresh.congr {part : ChannelPart} (h : part.Fresh hv kind m)
    (ha : Memory.Agree (part.start sizes kind) (part.stop sizes kind) m' m) : part.Fresh hv kind m' := by
  cases part with
  | active => exact (ha.read _ _ (Nat.le_refl _) (Nat.le_refl _)).trans h
  | codec => exact (ha.word32 _ (Nat.le_refl _) (Nat.le_refl _)).trans h
  | display =>
    obtain ⟨hready, htorn, hlength⟩ := h
    have hpayload : (sizes.channel kind).displayLock.payloadAt + 0 ≤ display.stop sizes kind :=
      Channel.payload_end_le_stop (Nat.zero_le _)
    obtain ⟨hlo, hhi⟩ := length_bounds sizes kind
    have hkept : display.Ready hv kind m := hready
    refine ⟨hkept.congr ha, ?_, (ha.word32 _ hlo hhi).trans hlength⟩
    rwa [Seqlock.torn_congr ha (Nat.le_trans (Seqlock.header_le_payload _ 0) hpayload)]
  | lane k => exact Lane.Fresh.congr h ha
  | packets =>
    refine ⟨PacketRing.SetUp.congr h.1 ha, ?_⟩
    have hend : (sizes.channel kind).packets.base + 8 ≤ packets.stop sizes kind :=
      Nat.le_trans (Nat.add_le_add_left (by decide) _) ((sizes.channel kind).packets.header_bounds hv.geometry).2
    exact (ha.word64 _ (Nat.le_refl _) hend).trans h.2

end ChannelPart

namespace Channel

variable {sizes : Sizes} {kind : ChannelKind}

/-- Where the blocks of a channel start. -/
theorem block_starts (sizes : Sizes) (kind : ChannelKind) :
    (sizes.channel kind).codecAt = (sizes.channel kind).base + 64 ∧
      (sizes.channel kind).displayLock.base = (sizes.channel kind).base + 128 ∧
      (sizes.channel kind).events.base =
        (sizes.channel kind).displayLock.base + Seqlock.size Layout.displayCapacity ∧
      (sizes.channel kind).packets.base = (sizes.channel kind).events.base + EventLanes.size sizes.eventSlots := by
  refine ⟨rfl, rfl, (Nat.add_assoc _ _ _).symm, ?_⟩
  simp only [events, packets, Sizes.channel, ofLayout, Layout.of]
  omega

/-- **Setting up a channel stays inside of it.** -/
theorem init_storesIn (sizes : Sizes) (kind : ChannelKind) (m : Memory) :
    ((sizes.channel kind).init sizes).StoresIn (sizes.channel kind).base
      ((sizes.channel kind).base + (Layout.of sizes).stride) m := by
  obtain ⟨hcodec, hdisplay, hevents, hpackets⟩ := block_starts sizes kind
  have hend : ChannelPart.packets.stop sizes kind ≤ (sizes.channel kind).base + (Layout.of sizes).stride :=
    ChannelPart.stop_le_next
  simp only [ChannelPart.stop] at hend
  rw [show sizes.eventSlots = (sizes.channel kind).events.slots from rfl] at hpackets
  have hlock : Seqlock.headerSize ≤ Seqlock.size Layout.displayCapacity := by decide
  simp only [init, Access.storesIn_bind, setActive, setCodec, Access.storesIn_setBytes, Access.storesIn_setWord32,
    List.length_singleton]
  refine ⟨⟨Nat.le_refl _, ?_⟩, ⟨?_, ?_⟩, (Seqlock.init_storesIn _ _ (Nat.le_refl _)).mono ?_ ?_,
    (EventLanes.init_storesIn _ _).mono ?_ ?_, (PacketRing.init_storesIn _ _ _ _).mono ?_ hend⟩
  all_goals omega

end Channel

namespace ChannelPart

variable {sizes : Sizes} {kind : ChannelKind} {m : Memory}

/-- **After setting up, every part is fresh**, if the length of the display selector was zero before. -/
theorem fresh_init (hv : sizes.Valid) (kind : ChannelKind)
    (hlength : m.word32 ((sizes.channel kind).displayLock.frameAt + 8) = 0) (part : ChannelPart) :
    part.Fresh hv kind (((sizes.channel kind).init sizes).run m).2 := by
  obtain ⟨hcodec, hdisplay, hevents, hpackets⟩ := Channel.block_starts sizes kind
  simp only [Channel.init, Access.run_bind]
  generalize hm₁ : ((((sizes.channel kind).setActive false).run m).2) = m₁
  generalize hm₂ : (((sizes.channel kind).setCodec 0).run m₁).2 = m₂
  generalize hm₃ : (((sizes.channel kind).displayLock.init Layout.displayCapacity).run m₂).2 = m₃
  generalize hm₄ : ((sizes.channel kind).events.init.run m₃).2 = m₄
  generalize hm₅ : (((sizes.channel kind).packets.init sizes.queueSize sizes.slotSize).run m₄).2 = m₅
  -- What lies in front of a block is not touched from there on.
  have h₅ {lo hi : Nat} (h : hi ≤ (sizes.channel kind).packets.base) : Memory.Agree lo hi m₅ m₄ := by
    rw [← hm₅]
    exact Access.agree_run_of_storesIn (PacketRing.init_storesIn _ _ _ _) (.inl h)
  have h₄ {lo hi : Nat} (h : hi ≤ (sizes.channel kind).events.base) : Memory.Agree lo hi m₅ m₃ := by
    refine (h₅ (by omega)).trans ?_
    rw [← hm₄]
    exact Access.agree_run_of_storesIn (EventLanes.init_storesIn _ _) (.inl h)
  have h₃ {lo hi : Nat} (h : hi ≤ (sizes.channel kind).displayLock.base) : Memory.Agree lo hi m₅ m₂ := by
    refine (h₄ (by omega)).trans ?_
    rw [← hm₃]
    exact Access.agree_run_of_storesIn (Seqlock.init_storesIn _ _ (Nat.le_refl _)) (.inl h)
  have h₂ {lo hi : Nat} (h : hi ≤ (sizes.channel kind).codecAt) : Memory.Agree lo hi m₅ m₁ := by
    refine (h₃ (by omega)).trans ?_
    rw [← hm₂]
    exact Memory.agree_write_of_disjoint _ (.inl h)
  cases part with
  | active =>
    have hset : active.Fresh hv kind m₁ := by
      rw [← hm₁]
      exact Memory.read_write m _ [0]
    exact hset.congr (h₂ (by simp only [stop]; omega))
  | codec =>
    have hset : codec.Fresh hv kind m₂ := by
      rw [← hm₂]
      exact Memory.word32_write_bytes32 _ _ _
    exact hset.congr (h₃ (by simp only [stop]; omega))
  | display =>
    have hframe : (sizes.channel kind).displayLock.frameAt = (sizes.channel kind).displayLock.base + 128 := rfl
    have hbefore : Memory.Agree ((sizes.channel kind).displayLock.frameAt + 8)
        ((sizes.channel kind).displayLock.frameAt + 12) m₃ m := by
      rw [← hm₃, ← hm₂, ← hm₁]
      refine (Access.agree_run_of_storesIn (Seqlock.init_storesIn _ _ (Nat.le_refl _)) (.inr ?_)).trans
        ((Memory.agree_write_of_disjoint _ (.inr ?_)).trans (Memory.agree_write_of_disjoint _ (.inr ?_)))
      · exact Nat.le_add_right _ _
      · rw [Memory.length_bytes32]
        omega
      · rw [List.length_singleton]
        omega
    have hset : display.Fresh hv kind m₃ := by
      refine ⟨?_, ?_, (hbefore.word32 _ (Nat.le_refl _) (Nat.le_refl _)).trans hlength⟩
      · rw [← hm₃]
        exact Seqlock.capacityIn_init _ _ (by decide)
      · rw [← hm₃]
        exact Seqlock.not_torn_init _ _
    exact hset.congr (h₄ (Nat.le_of_eq hevents.symm))
  | lane k =>
    have hset : (lane k).Fresh hv kind m₄ := by
      have hlt : sizes.eventSlots < 2 ^ 64 := Nat.lt_of_le_of_lt hv.eventSlots_le (by decide)
      rw [← hm₄]
      exact EventLanes.fresh_init _ hv.eventSlots_pos hlt _ k
    exact hset.congr (h₅ (lane_bounds sizes kind k).2)
  | packets =>
    rw [← hm₅]
    obtain ⟨hsetUp, hindex, -⟩ := PacketRing.setUp_init (sizes.channel kind).packets hv.geometry m₄
    exact ⟨hsetUp, hindex⟩

end ChannelPart

end MediaChannels
