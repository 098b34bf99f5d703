import MediaChannels.Proofs.Segment.Isolation

/-!
# What attaching admits

Whoever attaches to a channel checks the header, and the two sizes that the ring of the channel repeats. The operations
on the channel use more sizes than these: that of the display selector, the number of slots of every lane, the distance
of two slots of the ring, and the size of every slot. They are taken as they stand in memory.

* `Accepts.congr`, `attach_eq_ok`: what is checked when somebody attaches, and what is not.
* `safe_of_attach`: if the other sizes are in order too, nothing that is asked of the handle leaves the region or
  divides by zero.
* `attach_wild_stride`: if the distance of two slots is not, attaching succeeds all the same, and publishing a packet
  leaves the region.
-/

namespace MediaChannels

/-! ## Safe use of a handle -/

namespace ChannelHandle

/-- Every call of a sequence is safe when its turn comes, if nobody else writes. -/
def Safe (handle : ChannelHandle) : List (Sigma ChannelCall) → Memory → Prop
  | [], _ => True
  | ⟨_, call⟩ :: rest, m =>
    (call.perform handle).Safe handle.region.size m ∧ handle.Safe rest ((call.perform handle).run m).2

end ChannelHandle

/-- The sizes that a channel carries and nobody checks are those for which room was reserved. -/
structure Channel.Consistent (channel : Channel) (sizes : Sizes) (m : Memory) : Prop where
  display_eq : (m.word64 channel.displayLock.dataSizeAt).toNat = Seqlock.frameHeaderSize + Layout.displayCapacity
  slotCount_eq : ∀ kind, m.word64 (channel.events.lane kind).slotCountAt = .ofNat sizes.eventSlots
  stride_eq : m.word64 (channel.packets.sizesAt + 16) = .ofNat (Seqlock.size sizes.slotSize)
  dataSize_eq : ∀ i < sizes.queueSize,
    m.word64 (channel.packets.slotsAt + i * Seqlock.size sizes.slotSize + cacheLine) =
      .ofNat (Seqlock.frameHeaderSize + sizes.slotSize)

/-- A packet whose slot starts beyond the region is not published safely. -/
theorem PacketRing.not_safe_push {ring : PacketRing} {packet : Packet} {size : Nat} {m : Memory}
    (hp : packet.data.length ≤ (m.word64 (ring.sizesAt + 8)).toNat)
    (hslot : size < ring.slotsAt +
      (m.word64 ring.base % m.word64 ring.sizesAt).toNat * (m.word64 (ring.sizesAt + 16)).toNat) :
    ¬(ring.push packet).Safe size m := by
  intro hsafe
  have hrun : (ring.slot (m.word64 ring.base + 1)).run m = (⟨ring.slotsAt +
      (m.word64 ring.base % m.word64 ring.sizesAt).toNat * (m.word64 (ring.sizesAt + 16)).toNat⟩, m) := by
    simp [slot]
  have hwithin := Access.safe_iff_within.1 hsafe
  simp only [push, Access.within_bind, run_slotSize, if_neg (Nat.not_lt.2 hp), run_writeIndex, hrun] at hwithin
  obtain ⟨-, -, -, hwrite, -⟩ := hwithin
  -- The first thing that a write looks at is the size of the slot.
  simp only [Seqlock.write, Seqlock.capacity, Access.within_bind, Access.within_word64] at hwrite
  obtain ⟨⟨hle, -⟩, -⟩ := hwrite
  simp only [Seqlock.dataSizeAt] at hle
  omega

namespace Segment

variable {sizes : Sizes} {kind : ChannelKind} {size : Nat} {m m' : Memory} {s s' : SharedMemory} {name : String}
  {index : Nat} {handle : ChannelHandle}

/-- Attaching looks at nothing but the header and the two sizes of the ring. -/
theorem Accepts.congr (h : Accepts sizes kind size m) (hheader : Memory.Agree 0 headerSize m' m)
    (hring : Memory.Agree (sizes.channel kind).packets.sizesAt ((sizes.channel kind).packets.sizesAt + 16) m' m) :
    Accepts sizes kind size m' := by
  refine ⟨h.valid, h.fits, ?_, ?_, ?_, ?_, ?_, ?_, ?_, h.size_le, ?_, ?_⟩
  · rw [hheader.word32 _ (by decide) (by decide), h.magic_eq]
  · rw [hheader.word32 _ (by decide) (by decide), h.version_eq]
  · rw [hheader.word32 _ (by decide) (by decide)]
    exact h.index_lt
  · rw [hheader.word64 _ (by decide) (by decide), h.queueSize_eq]
  · rw [hheader.word64 _ (by decide) (by decide), h.slotSize_eq]
  · rw [hheader.word64 _ (by decide) (by decide), h.eventSlots_eq]
  · rw [hheader.word64 _ (by decide) (by decide), h.stride_eq]
  · rw [hring.word64 _ (Nat.le_refl _) (by omega), h.ringQueueSize_eq]
  · rw [hring.word64 _ (by omega) (by omega), h.ringSlotSize_eq]

/-- **What is accepted, and is consistent, carries its sizes.** -/
theorem Accepts.ready (h : Accepts sizes kind size m) (hc : (sizes.channel kind).Consistent sizes m)
    (part : ChannelPart) : part.Ready h.valid kind m := by
  cases part with
  | active => trivial
  | codec => trivial
  | display =>
    show (sizes.channel kind).displayLock.capacityIn m = Layout.displayCapacity
    rw [Seqlock.capacityIn, hc.display_eq, Nat.add_sub_cancel_left]
  | lane k =>
    exact ⟨h.valid.eventSlots_pos, Nat.lt_of_le_of_lt h.valid.eventSlots_le (by decide), hc.slotCount_eq k⟩
  | packets =>
    refine ⟨?_, ?_, hc.stride_eq, hc.dataSize_eq⟩
    · exact UInt64.toNat_inj.1 (h.ringQueueSize_eq.trans h.valid.geometry.toNat_queueSize.symm)
    · exact UInt64.toNat_inj.1 (h.ringSlotSize_eq.trans h.valid.geometry.toNat_slotSize.symm)

/-- A channel whose parts carry their sizes is consistent. -/
theorem consistent_of_ready {hv : sizes.Valid} (h : ∀ part : ChannelPart, part.Ready hv kind m) :
    (sizes.channel kind).Consistent sizes m := by
  have hdisplay : (sizes.channel kind).displayLock.capacityIn m = Layout.displayCapacity := h .display
  have hring : (sizes.channel kind).packets.SetUp hv.geometry m := h .packets
  refine ⟨?_, fun k => ?_, hring.stride_eq, hring.dataSize_eq⟩
  · simp only [Seqlock.capacityIn, Layout.displayCapacity] at hdisplay
    simp only [Layout.displayCapacity]
    omega
  · have hlane : ((sizes.channel kind).events.lane k).Sized sizes.eventSlots m := h (.lane k)
    exact hlane.slotCount_eq

/-- Whatever is asked of a channel that carries its sizes is safe, and it goes on carrying them. -/
theorem safe_of_ready {hv : sizes.Valid} (hsize : (Layout.of sizes).totalSize ≤ handle.region.size)
    (hhandle : handle.channel = sizes.channel kind) (hready : ∀ part : ChannelPart, part.Ready hv kind m)
    (calls : List (Sigma ChannelCall)) : handle.Safe calls m := by
  induction calls generalizing m with
  | nil => trivial
  | cons call rest ih =>
    obtain ⟨hwithin, hready'⟩ := ChannelCall.perform_sound hready hhandle call.2
    exact ⟨ChannelPart.safe_of_within hwithin hsize, ih hready'⟩

/-- Who attaches has found all that is looked at in order. -/
theorem attach_eq_ok (h : attach s name index = (.ok handle, s')) :
    ∃ (kind : ChannelKind) (sizes : Sizes), kind.index = index ∧ handle.channel = sizes.channel kind ∧
      Accepts sizes kind handle.region.size (s'.object handle.region.object).memory := by
  unfold attach at h
  split at h
  · cases h
  next kind hkind =>
  split at h
  · cases h
  next region opened hopen =>
  split at h
  · cases h
  next channel m hverify =>
  cases h
  obtain ⟨-, hobjects⟩ := SharedMemory.eq_of_openRegion hopen
  obtain ⟨sizes, haccepts, rfl⟩ := accepts_of_run_verify (congrArg Prod.fst hverify)
  refine ⟨kind, sizes, ChannelKind.index_of_ofIndex hkind, rfl, ?_⟩
  rw [SharedMemory.object, hobjects]
  exact haccepts

/-- **Attaching admits what is safe if the sizes that it does not check are in order.** The sizes in the header can be
those of a segment, the region has room for it, and the handle leads to the channel with the index. If moreover the
channel is consistent with these sizes, then nothing that is asked of the handle, in any order, leaves the region or
divides by zero. -/
theorem safe_of_attach (h : attach s name index = (.ok handle, s')) :
    let m := (s'.object handle.region.object).memory
    let sizes := (readSizes.run m).1
    sizes.Valid ∧ (Layout.of sizes).totalSize ≤ handle.region.size ∧
      (∃ kind : ChannelKind, kind.index = index ∧ handle.channel = sizes.channel kind) ∧
      (handle.channel.Consistent sizes m → ∀ calls, handle.Safe calls m) := by
  intro m sizes
  obtain ⟨kind, read, hindex, hchannel, haccepts⟩ := attach_eq_ok h
  obtain rfl : read = sizes := (congrArg Prod.fst haccepts.run_readSizes).symm
  refine ⟨haccepts.valid, haccepts.size_le, ⟨kind, hindex, hchannel⟩, fun hconsistent calls => ?_⟩
  rw [hchannel] at hconsistent
  exact safe_of_ready haccepts.size_le hchannel (haccepts.ready hconsistent) calls

/-- So it is for a segment that its creator has just made. -/
theorem safe_of_attach_created :
    ∃ segment s handle t, create .empty "desk" { queueSize := 2, slotSize := 64, eventSlots := 1 } = (.ok segment, s) ∧
      attach s "desk" 3 = (.ok handle, t) ∧ ∀ calls, handle.Safe calls (t.object handle.region.object).memory := by
  obtain ⟨segment, s, h⟩ : ∃ segment s,
      create .empty "desk" { queueSize := 2, slotSize := 64, eventSlots := 1 } = (.ok segment, s) :=
    exists_create rfl (Sizes.check_eq_ok_iff.1 rfl) rfl (by decide) (.inl rfl)
  obtain ⟨-, hname, hlive, -⟩ := live_create h
  have hattach := hlive.attach .input
  rw [hname] at hattach
  refine ⟨segment, s, _, _, h, hattach, ?_⟩
  obtain ⟨-, -, -, hsafe⟩ := safe_of_attach hattach
  refine hsafe ?_
  have hsizes : (readSizes.run (segment.bytes s)).1 = segment.sizes :=
    congrArg Prod.fst (hlive.accepts .input).run_readSizes
  show (segment.sizes.channel .input).Consistent (readSizes.run (segment.bytes s)).1 (segment.bytes s)
  rw [hsizes]
  exact consistent_of_ready (hlive.ready .input)

/-! ## Sizes that are not checked -/

/-- The memory after somebody has changed the distance of the slots of a ring. -/
def withStride (segment : Segment) (kind : ChannelKind) (stride : UInt64) (s : SharedMemory) : SharedMemory :=
  (s.access segment.region.object (Access.setWord64 ((segment.sizes.channel kind).packets.sizesAt + 16) stride)).2

/-- **Whatever the distance of the slots, attaching succeeds; and when it leads beyond the region, so does the next
packet that does not go into the first slot.** -/
theorem attach_wild_stride {segment : Segment} (h : segment.Live s) (kind : ChannelKind) (stride : UInt64)
    {packet : Packet} (hp : packet.data.length ≤ segment.sizes.slotSize)
    (hplace : ((segment.bytes s).word64 (segment.sizes.channel kind).packets.base).toNat % segment.sizes.queueSize ≠ 0)
    (hstride : segment.region.size < (segment.sizes.channel kind).packets.slotsAt + stride.toNat) :
    ∃ handle t, attach (withStride segment kind stride s) segment.region.name kind.index = (.ok handle, t) ∧
      ¬handle.Safe [⟨_, .pushPacket packet⟩] (t.object handle.region.object).memory := by
  have hbacked : (withStride segment kind stride s).Backs segment.region := h.backed.access _
  have hbytes : ((withStride segment kind stride s).object segment.region.object).memory =
      (segment.bytes s).write ((segment.sizes.channel kind).packets.sizesAt + 16) (Memory.bytes64 stride) :=
    h.backed.memory_access _
  have hfront : headerSize ≤ (segment.sizes.channel kind).packets.base :=
    (ChannelPart.packets.start_bounds segment.sizes kind).1
  have hsizes : (segment.sizes.channel kind).packets.sizesAt = (segment.sizes.channel kind).packets.base + 64 := rfl
  have haccepts : Accepts segment.sizes kind segment.region.size
      ((withStride segment kind stride s).object segment.region.object).memory := by
    rw [hbytes]
    exact (h.accepts kind).congr (Memory.agree_write_of_disjoint _ (.inl (by omega)))
      (Memory.agree_write_of_disjoint _ (.inl (Nat.le_refl _)))
  refine ⟨_, _, attach_of_accepts hbacked haccepts, fun hsafe => ?_⟩
  have hpush : ((segment.sizes.channel kind).packets.push packet).Safe segment.region.size
      ((withStride segment kind stride s).object segment.region.object).memory := hsafe.1
  rw [hbytes] at hpush
  -- All words of the ring but the distance of its slots are as they were.
  have hword {offset : Nat} (hoffset : offset + 8 ≤ (segment.sizes.channel kind).packets.sizesAt + 16) :
      ((segment.bytes s).write ((segment.sizes.channel kind).packets.sizesAt + 16) (Memory.bytes64 stride)).word64
        offset = (segment.bytes s).word64 offset := Memory.word64_write_of_disjoint _ (.inl hoffset)
  have hring : (segment.sizes.channel kind).packets.SetUp h.valid.geometry (segment.bytes s) := h.ready kind .packets
  refine PacketRing.not_safe_push ?_ ?_ hpush
  · rw [hword (by omega), hring.slotSize_eq, h.valid.geometry.toNat_slotSize]
    exact hp
  · rw [hword (by omega), hword (by omega), Memory.word64_write_bytes64, hring.queueSize_eq, UInt64.toNat_mod,
      h.valid.geometry.toNat_queueSize]
    have hle := Nat.le_mul_of_pos_left stride.toNat (Nat.pos_of_ne_zero hplace)
    exact Nat.lt_of_lt_of_le hstride (Nat.add_le_add_left hle _)

/-- So the checks do not suffice: here a packet was published before the distance of the slots was changed. -/
theorem attach_admits_unsafe :
    ¬∀ (s s' : SharedMemory) (name : String) (index : Nat) (handle : ChannelHandle),
      attach s name index = (.ok handle, s') →
        ∀ calls, handle.Safe calls (s'.object handle.region.object).memory := by
  intro hall
  obtain ⟨segment, s, h⟩ : ∃ segment s,
      create .empty "desk" { queueSize := 2, slotSize := 64, eventSlots := 1 } = (.ok segment, s) :=
    exists_create rfl (Sizes.check_eq_ok_iff.1 rfl) rfl (by decide) (.inl rfl)
  obtain ⟨hsizes, -, hlive, hv, hfresh⟩ := live_create h
  have hto := hlive.leadsTo_channel .input
  obtain ⟨hring, hindex⟩ := hfresh .input .packets
  -- One packet is published, so the next one goes into the second slot.
  obtain ⟨hlive', -⟩ := hlive.ask hto (.pushPacket { data := [1] })
  obtain ⟨-, hbytes⟩ := hlive.ask_eq hto (.pushPacket { data := [1] })
  rw [ChannelCall.perform, hto.channel_eq] at hbytes
  have hfits : ({ data := [1] } : Packet).data.length ≤ segment.sizes.slotSize := by
    rw [hsizes]
    decide
  have hwritten := PacketRing.writeIndex_push hring hfits
  rw [PacketRing.nextIndex, hindex, ← hbytes] at hwritten
  -- The second slot is moved beyond the end.
  obtain ⟨handle, t, hattach, hunsafe⟩ := attach_wild_stride hlive' .input 1024 hfits
    (by rw [hwritten, hsizes]; decide) (by rw [hlive.size_eq, hsizes]; decide)
  exact hunsafe (hall _ _ _ _ _ hattach _)

end Segment

end MediaChannels
