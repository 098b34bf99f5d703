import MediaChannels.Proofs.PacketRing.Stream
import MediaChannels.Proofs.Segment.Created
import MediaChannels.Proofs.SharedMemory.Names

/-!
# The rings of a segment

Every channel of a segment has a ring, and each ring publishes a stream of its own. Publishing a packet in one of them
changes neither the header nor the streams of the others; creating the segment again empties all of them.

* `PacketRing.Publishes.congr`: only the bytes of a ring matter for what it publishes.
* `Segment.Carries`: an object holds a segment with these sizes, whose rings publish these packets.
* `Segment.carries_create`: so does the object of a segment that was just created, with no packet at all.
* `Segment.Carries.push`: a packet is added to one ring.
-/

namespace MediaChannels

namespace PacketRing

variable {ring : PacketRing} {g : Geometry} {torn : Nat → Bool} {start : Nat} {packets : List Packet} {m m' : Memory}

/-- What a ring publishes depends only on the bytes of the ring. -/
theorem Publishes.congr (h : ring.Publishes g torn start packets m)
    (ha : Memory.Agree ring.base (ring.stop g) m' m) : ring.Publishes g torn start packets m' := by
  obtain ⟨-, hheader⟩ := header_bounds ring g
  have hslot {i : Nat} (hi : i < g.queueSize) :
      Memory.Agree (ring.slotAt g i).base ((ring.slotAt g i).payloadAt + g.slotSize) m' m :=
    ha.mono (base_le_slotAt i) (slotAt_end_le_stop hi)
  have hsetUp := h.setUp.congr ha
  refine ⟨hsetUp, h.length_lt, ?_, ?_, ?_⟩
  · rw [ha.word64 _ (Nat.le_refl _) (by omega), h.writeIndex_eq]
  · intro i hi
    exact (Seqlock.torn_congr (hslot hi) (Seqlock.header_le_payload _ _)).trans (h.torn_iff i hi)
  · intro i hi hs hq hwhole
    have hplace := Nat.mod_lt i g.queueSize_pos
    have hend : (ring.slotAt g (i % g.queueSize)).payloadAt + (ring.slotAt g (i % g.queueSize)).capacityIn m' ≤
        (ring.slotAt g (i % g.queueSize)).payloadAt + g.slotSize :=
      Nat.le_of_eq (by rw [hsetUp.capacityIn hplace])
    rw [Seqlock.contents_congr (hslot hplace) hend, h.contents_eq i hi hs hq hwhole]

end PacketRing

namespace Segment

variable {segment : Segment} {sizes sizes' : Sizes} {kind : ChannelKind} {published : ChannelKind → List Packet}
  {o : MemoryObject} {s s' : SharedMemory} {name : String} {packet : Packet}

/-- The rings of a finished segment are healthy and have published nothing, whatever the memory held before. -/
theorem healthy_init (hv : sizes.Valid) (kind : ChannelKind) (m : Memory) :
    (sizes.channel kind).packets.Healthy hv.geometry [] ((init sizes (.of sizes)).run m).2 := by
  obtain ⟨before, -, hafter⟩ :=
    agree_init_initChannels sizes (prepared sizes m) (by decide : ChannelKind.all.Nodup) kind.mem_all
  have hset : (sizes.channel kind).packets.Healthy hv.geometry [] (((sizes.channel kind).init sizes).run before).2 := by
    simp only [Channel.init, Access.run_bind]
    exact PacketRing.healthy_init _ hv.geometry _
  have hlo : (sizes.channel kind).base ≤ ChannelPart.packets.start sizes kind := ChannelPart.base_le_start
  have hhi : ChannelPart.packets.stop sizes kind ≤ (sizes.channel kind).base + (Layout.of sizes).stride :=
    ChannelPart.stop_le_next
  rw [run_init]
  exact hset.congr ((agree_write_magic (ChannelPart.packets.start_bounds sizes kind).1).trans (hafter.mono hlo hhi))

/-- An object holds a segment with these sizes, and its rings publish these packets. -/
structure Carries (sizes : Sizes) (published : ChannelKind → List Packet) (o : MemoryObject) : Prop where
  valid : sizes.Valid
  fits : Layout.of? sizes = some (.of sizes)
  size_eq : o.size = (Layout.of sizes).totalSize
  size_pos : 0 < o.size
  size_le : o.size ≤ SharedMemory.addressSpace
  header : Published sizes o.memory
  healthy : ∀ kind, (sizes.channel kind).packets.Healthy valid.geometry (published kind) o.memory

/-! ## Creating -/

/-- Creating a segment: a region is created, and the segment is written into it. -/
theorem create_eq_ok (h : create s name sizes = (.ok segment, s')) :
    ∃ s₁, s.create name (Layout.of sizes).totalSize = (.ok segment.region, s₁) ∧ sizes.Valid ∧
      Layout.of? sizes = some (.of sizes) ∧ segment = { region := segment.region, sizes, layout := .of sizes } ∧
        s' = (s₁.access segment.region.object (init sizes (.of sizes))).2 := by
  unfold create at h
  split at h
  · cases h
  next hvalid =>
  split at h
  · cases h
  next layout hlayout =>
  obtain rfl := Layout.of?_eq_some hlayout
  split at h
  · cases h
  next region s₁ hregion =>
  cases h
  exact ⟨s₁, hregion, Sizes.validate_eq_ok_iff.1 hvalid, hlayout, rfl, rfl⟩

/-- If creating a segment fails, all is as it was, or it was the region that could not be created. -/
theorem create_eq_error {e : Error} (h : create s name sizes = (.error e, s')) :
    s' = s ∨ s.create name (Layout.of sizes).totalSize = (.error e, s') := by
  unfold create at h
  split at h
  · cases h
    exact .inl rfl
  split at h
  · cases h
    exact .inl rfl
  next layout hlayout =>
  obtain rfl := Layout.of?_eq_some hlayout
  split at h
  · next hregion =>
    cases h
    exact .inr hregion
  · cases h

/-- **A segment that was just created has published nothing**, whatever its name led to before. -/
theorem carries_create (hs : s.Regular) (h : create s name sizes = (.ok segment, s')) :
    s.Touches name segment.region.object s' ∧ Carries sizes (fun _ => []) (s'.object segment.region.object) := by
  obtain ⟨s₁, hregion, hv, hfits, -, rfl⟩ := create_eq_ok h
  obtain ⟨hbacked, -, hsize, hzeroed⟩ := SharedMemory.Backs.of_create hregion
  have htouches : s.Touches name segment.region.object s₁ := by
    generalize segment.region = region at hregion
    cases hs.creation hregion with
    | made _ htouches => exact htouches
  have hobject : (s₁.access segment.region.object (init sizes (.of sizes))).2.object segment.region.object =
      ⟨(Layout.of sizes).totalSize, ((init sizes (.of sizes)).run .zeroed).2⟩ := by
    simp only [SharedMemory.access, SharedMemory.object_setObject_self _ _ hbacked.object_lt, hzeroed]
  refine ⟨htouches.setObject _, ?_⟩
  rw [hobject]
  exact ⟨hv, hfits, rfl, hsize ▸ hbacked.size_pos, hsize ▸ hbacked.size_le, published_init sizes _,
    fun kind => healthy_init hv kind _⟩

/-! ## Using -/

/-- Whoever attaches to a channel has opened the region. -/
theorem openRegion_of_attach {index : Nat} {handle : ChannelHandle} (h : attach s name index = (.ok handle, s')) :
    s.openRegion name = (.ok handle.region, s') := by
  unfold attach at h
  split at h
  · cases h
  split at h
  · cases h
  next hopen =>
  split at h
  · cases h
  · cases h
    exact hopen

namespace Carries

/-- Everybody can attach to the segment. -/
theorem accepts (h : Carries sizes published o) (kind : ChannelKind) : Accepts sizes kind o.size o.memory :=
  h.header.accepts h.valid h.fits (h.healthy kind).setUp (Nat.le_of_eq h.size_eq.symm)

/-- Whoever is let in has read the sizes of the segment. -/
theorem sizes_eq {size : Nat} (h : Carries sizes published o) (ha : Accepts sizes' kind size o.memory) :
    sizes' = sizes :=
  congrArg Prod.fst (ha.run_readSizes.symm.trans (h.accepts kind).run_readSizes)

/-- **A packet that fits is added to its ring**, and the others stay as they are. -/
theorem push (h : Carries sizes published o) (hp : packet.data.length ≤ sizes.slotSize)
    (hroom : (published kind).length + 1 < 2 ^ 64) :
    (∃ index, (((sizes.channel kind).packets.push packet).run o.memory).1 = .ok index) ∧
      Carries sizes (fun k => if k = kind then published k ++ [packet] else published k)
        { o with memory := (((sizes.channel kind).packets.push packet).run o.memory).2 } := by
  have hring := h.healthy kind
  have hwithin : ((sizes.channel kind).packets.push packet).Within (ChannelPart.Within sizes kind [.packets])
      o.memory :=
    ChannelPart.within_of_mem (List.mem_singleton.2 rfl) (hring.setUp.push_within packet)
  refine ⟨⟨_, congrArg Prod.fst (PacketRing.run_push hring.setUp hp)⟩, h.valid, h.fits, h.size_eq, h.size_pos,
    h.size_le, h.header.congr (ChannelPart.agree_header_of_within hwithin), fun k => ?_⟩
  by_cases hk : k = kind
  · subst hk
    have hpush := hring.push hp
    rw [PacketRing.epoch_of_lt (by simpa using hroom)] at hpush
    rw [if_pos rfl]
    exact hpush
  · have hagree : Memory.Agree (ChannelPart.packets.start sizes k) (ChannelPart.packets.stop sizes k)
        (((sizes.channel kind).packets.push packet).run o.memory).2 o.memory :=
      ChannelPart.agree_part_of_within hwithin (.inl (Ne.symm hk))
    rw [if_neg hk]
    exact (h.healthy k).congr hagree

/-- A packet that does not fit is refused, and nothing changes. -/
theorem push_of_too_large (h : Carries sizes published o) (kind : ChannelKind)
    (hp : sizes.slotSize < packet.data.length) :
    ((sizes.channel kind).packets.push packet).run o.memory =
      (.error (.payloadTooLarge sizes.slotSize packet.data.length), o.memory) :=
  PacketRing.push_of_too_large (h.healthy kind).setUp hp

end Carries

end Segment

end MediaChannels
