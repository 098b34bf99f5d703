import MediaChannels.Proofs.Channel.Fresh
import MediaChannels.Segment

/-!
# The header of a segment

The creator computes the layout from the sizes that it was given, everybody else from the sizes in the header. Both come
to the same result, so what was published is accepted.

* `published_init`, `fresh_init`: what a segment in zeroed memory looks like when it is finished.
* `Accepts`: all that is looked at when somebody attaches to a channel.
* `verdict_verify`: what comes of looking at it, in every case.
* `Accepts.run_verify`, `accepts_of_run_verify`: a channel is accepted if and only if that is in order.
* `Published.accepts`: so it is when a header is published and the ring of the channel carries its sizes.
-/

namespace MediaChannels

theorem Memory.read_zeroed (offset count : Nat) : Memory.zeroed.read offset count = List.replicate count 0 := by
  apply List.ext_getElem?
  intro i
  rw [Memory.getElem?_read, Memory.byte_zeroed, List.getElem?_replicate]

theorem Memory.word32_zeroed (offset : Nat) : Memory.zeroed.word32 offset = 0 := by
  rw [Memory.word32, Memory.read_zeroed]
  rfl

namespace Layout

theorem lt_of_word? {n m : Nat} (h : word? n = some m) : n < 1 <<< 64 := by
  unfold word? at h
  split at h
  · assumption
  · cases h

/-- The distance of two channels is a word. -/
theorem stride_lt {sizes : Sizes} {l : Layout} (h : of? sizes = some l) : l.stride < 1 <<< 64 := by
  simp only [of?, Option.bind_eq_bind, Option.bind_eq_some_iff, Option.pure_def, Option.some.injEq] at h
  obtain ⟨packets, -, slot, -, slotStride, -, slots, -, ring, -, channel, -, stride, -, channels, hchannels, total, -,
    rfl⟩ := h
  have hlt := lt_of_word? hchannels
  rw [show ChannelKind.all.length = 4 from rfl] at hlt
  dsimp only
  omega

end Layout

namespace Segment

/-- The header of a finished segment. -/
structure Published (sizes : Sizes) (m : Memory) : Prop where
  magic_eq : m.word32 0 = magic
  version_eq : m.word32 versionAt = version
  channelCount_eq : m.word32 channelCountAt = .ofNat ChannelKind.all.length
  queueSize_eq : m.word64 sizesAt = .ofNat sizes.queueSize
  slotSize_eq : m.word64 (sizesAt + 8) = .ofNat sizes.slotSize
  eventSlots_eq : m.word64 (sizesAt + 16) = .ofNat sizes.eventSlots
  stride_eq : m.word64 strideAt = .ofNat (Layout.of sizes).stride

variable {sizes : Sizes} {m m' : Memory}

theorem Published.congr (h : Published sizes m) (ha : Memory.Agree 0 headerSize m' m) : Published sizes m' where
  magic_eq := (ha.word32 _ (by decide) (by decide)).trans h.magic_eq
  version_eq := (ha.word32 _ (by decide) (by decide)).trans h.version_eq
  channelCount_eq := (ha.word32 _ (by decide) (by decide)).trans h.channelCount_eq
  queueSize_eq := (ha.word64 _ (by decide) (by decide)).trans h.queueSize_eq
  slotSize_eq := (ha.word64 _ (by decide) (by decide)).trans h.slotSize_eq
  eventSlots_eq := (ha.word64 _ (by decide) (by decide)).trans h.eventSlots_eq
  stride_eq := (ha.word64 _ (by decide) (by decide)).trans h.stride_eq

/-! ## Setting up the channels -/

section Channels

/-- Setting up some channels leaves alone what is apart from all of them. -/
theorem agree_initChannels {kinds : List ChannelKind} {lo hi : Nat}
    (h : ∀ kind ∈ kinds, hi ≤ (sizes.channel kind).base ∨ (sizes.channel kind).base + (Layout.of sizes).stride ≤ lo) :
    Memory.Agree lo hi ((initChannels sizes (.of sizes) kinds).run m).2 m := by
  induction kinds generalizing m with
  | nil => exact .refl m
  | cons kind rest ih =>
    rw [initChannels, Access.run_bind]
    refine (ih fun k hk => h k (List.mem_cons_of_mem _ hk)).trans ?_
    exact Access.agree_run_of_storesIn (Channel.init_storesIn sizes kind m) (h kind List.mem_cons_self)

/-- A channel that is set up before others, or after them, stays as it was set up, and what it was set up in is what it
was before. -/
theorem agree_init_initChannels (sizes : Sizes) (m : Memory) {kinds : List ChannelKind} (hnodup : kinds.Nodup)
    {kind : ChannelKind} (hmem : kind ∈ kinds) :
    ∃ before,
      Memory.Agree (sizes.channel kind).base ((sizes.channel kind).base + (Layout.of sizes).stride) before m ∧
      Memory.Agree (sizes.channel kind).base ((sizes.channel kind).base + (Layout.of sizes).stride)
        ((initChannels sizes (.of sizes) kinds).run m).2 (((sizes.channel kind).init sizes).run before).2 := by
  induction kinds generalizing m with
  | nil => cases hmem
  | cons k rest ih =>
    obtain ⟨hk, hrest⟩ := List.nodup_cons.1 hnodup
    rw [initChannels, Access.run_bind]
    rcases List.mem_cons.1 hmem with rfl | hmem
    · refine ⟨m, .refl m, agree_initChannels fun k hk' => ?_⟩
      have hne : k ≠ kind := fun he => hk (he ▸ hk')
      exact (ChannelPart.channel_apart sizes hne).symm
    · obtain ⟨before, hbefore, hafter⟩ := ih (((sizes.channel k).init sizes).run m).2 hrest hmem
      have hne : k ≠ kind := fun he => hk (he ▸ hmem)
      refine ⟨before, hbefore.trans ?_, hafter⟩
      exact Access.agree_run_of_storesIn (Channel.init_storesIn sizes k m) (ChannelPart.channel_apart sizes hne).symm

/-- So all of its parts are fresh. -/
theorem fresh_initChannels (hv : sizes.Valid) {kinds : List ChannelKind} (hnodup : kinds.Nodup) {kind : ChannelKind}
    (hlength : m.word32 ((sizes.channel kind).displayLock.frameAt + 8) = 0) (hmem : kind ∈ kinds)
    (part : ChannelPart) : part.Fresh hv kind ((initChannels sizes (.of sizes) kinds).run m).2 := by
  obtain ⟨before, hbefore, hafter⟩ := agree_init_initChannels sizes m hnodup hmem
  obtain ⟨hlo, hhi⟩ := ChannelPart.length_bounds sizes kind
  have hlo' := Nat.le_trans ChannelPart.base_le_start hlo
  have hhi' := Nat.le_trans hhi ChannelPart.stop_le_next
  rw [← hbefore.word32 _ hlo' hhi'] at hlength
  exact (ChannelPart.fresh_init hv kind hlength part).congr
    (hafter.mono ChannelPart.base_le_start ChannelPart.stop_le_next)

end Channels

/-! ## A finished segment -/

theorem agree_header_initChannels (kinds : List ChannelKind) :
    Memory.Agree 0 headerSize ((initChannels sizes (.of sizes) kinds).run m).2 m :=
  agree_initChannels fun _ _ => .inl (Nat.le_add_right _ _)

/-- The magic number lies in front of all channels. -/
theorem agree_write_magic {lo hi : Nat} (h : headerSize ≤ lo) :
    Memory.Agree lo hi (m.write 0 (Memory.bytes32 magic)) m := by
  apply Memory.agree_write_of_disjoint
  rw [Memory.length_bytes32]
  exact .inr (Nat.le_trans (by decide) h)

/-- The memory before the channels are set up: all of the header but the magic number. -/
def prepared (sizes : Sizes) (m : Memory) : Memory :=
  (((((m.write versionAt (Memory.bytes32 version)).write channelCountAt
    (Memory.bytes32 (.ofNat ChannelKind.all.length))).write sizesAt (Memory.bytes64 (.ofNat sizes.queueSize))).write
      (sizesAt + 8) (Memory.bytes64 (.ofNat sizes.slotSize))).write (sizesAt + 16)
        (Memory.bytes64 (.ofNat sizes.eventSlots))).write strideAt (Memory.bytes64 (.ofNat (Layout.of sizes).stride))

theorem run_init (sizes : Sizes) (m : Memory) :
    ((init sizes (.of sizes)).run m).2 =
      ((initChannels sizes (.of sizes) ChannelKind.all).run (prepared sizes m)).2.write 0 (Memory.bytes32 magic) := by
  simp only [init, Access.run_bind, Access.run_setWord32, Access.run_setWord64]
  rfl

/-- **The header of a finished segment is published.** -/
theorem published_init (sizes : Sizes) (m : Memory) : Published sizes ((init sizes (.of sizes)).run m).2 := by
  have hagree : Memory.Agree 4 headerSize ((init sizes (.of sizes)).run m).2 (prepared sizes m) := by
    rw [run_init]
    refine (Memory.agree_write_of_disjoint _ (.inr ?_)).trans
      ((agree_header_initChannels _).mono (Nat.zero_le _) (Nat.le_refl _))
    exact Nat.le_of_eq (Memory.length_bytes32 magic)
  refine ⟨?_, (hagree.word32 _ (by decide) (by decide)).trans ?_, (hagree.word32 _ (by decide) (by decide)).trans ?_,
    (hagree.word64 _ (by decide) (by decide)).trans ?_, (hagree.word64 _ (by decide) (by decide)).trans ?_,
    (hagree.word64 _ (by decide) (by decide)).trans ?_, (hagree.word64 _ (by decide) (by decide)).trans ?_⟩
  · rw [run_init, Memory.word32_write_bytes32]
  · rw [prepared, Memory.word32_write_of_disjoint, Memory.word32_write_of_disjoint, Memory.word32_write_of_disjoint,
      Memory.word32_write_of_disjoint, Memory.word32_write_of_disjoint, Memory.word32_write_bytes32]
    all_goals exact .inl (by decide)
  · rw [prepared, Memory.word32_write_of_disjoint, Memory.word32_write_of_disjoint, Memory.word32_write_of_disjoint,
      Memory.word32_write_of_disjoint, Memory.word32_write_bytes32]
    all_goals exact .inl (by decide)
  · rw [prepared, Memory.word64_write_of_disjoint, Memory.word64_write_of_disjoint, Memory.word64_write_of_disjoint,
      Memory.word64_write_bytes64]
    all_goals exact .inl (by decide)
  · rw [prepared, Memory.word64_write_of_disjoint, Memory.word64_write_of_disjoint, Memory.word64_write_bytes64]
    all_goals exact .inl (by decide)
  · rw [prepared, Memory.word64_write_of_disjoint, Memory.word64_write_bytes64]
    exact .inl (by decide)
  · rw [prepared, Memory.word64_write_bytes64]

/-- Behind the header nothing is prepared. -/
theorem agree_prepared {lo hi : Nat} (h : headerSize ≤ lo) : Memory.Agree lo hi (prepared sizes m) m := by
  have hstrideAt : strideAt + 8 ≤ lo := Nat.le_trans (by decide) h
  simp only [strideAt] at hstrideAt
  refine (Memory.agree_write_of_disjoint _ (.inr ?_)).trans ((Memory.agree_write_of_disjoint _ (.inr ?_)).trans
    ((Memory.agree_write_of_disjoint _ (.inr ?_)).trans ((Memory.agree_write_of_disjoint _ (.inr ?_)).trans
      ((Memory.agree_write_of_disjoint _ (.inr ?_)).trans (Memory.agree_write_of_disjoint _ (.inr ?_))))))
  all_goals
    simp only [Memory.length_bytes32, Memory.length_bytes64, strideAt, sizesAt, channelCountAt, versionAt]
    omega

/-- **All parts of a finished segment are fresh**, if it was made of zeroed bytes. -/
theorem fresh_init (hv : sizes.Valid) (kind : ChannelKind) (part : ChannelPart) :
    part.Fresh hv kind ((init sizes (.of sizes)).run .zeroed).2 := by
  rw [run_init]
  have hset : part.Fresh hv kind ((initChannels sizes (.of sizes) ChannelKind.all).run (prepared sizes .zeroed)).2 := by
    refine fresh_initChannels hv (by decide) ?_ kind.mem_all part
    obtain ⟨hlo, -⟩ := ChannelPart.length_bounds sizes kind
    have hbehind := Nat.le_trans (ChannelPart.display.start_bounds sizes kind).1 hlo
    rw [(agree_prepared hbehind).word32 _ (Nat.le_refl _) (Nat.le_refl _), Memory.word32_zeroed]
  exact hset.congr (agree_write_magic (part.start_bounds sizes kind).1)

/-! ## Checking it -/

theorem run_readSizes (m : Memory) :
    readSizes.run m =
      (⟨(m.word64 sizesAt).toNat, (m.word64 (sizesAt + 8)).toNat, (m.word64 (sizesAt + 16)).toNat⟩, m) := by
  simp [readSizes]

/-- All that is looked at when somebody attaches to a channel: the header, the size of the region, and the two sizes
that the ring of the channel repeats. -/
structure Accepts (sizes : Sizes) (kind : ChannelKind) (size : Nat) (m : Memory) : Prop where
  valid : sizes.Valid
  fits : Layout.of? sizes = some (.of sizes)
  magic_eq : m.word32 0 = magic
  version_eq : m.word32 versionAt = version
  index_lt : kind.index < (m.word32 channelCountAt).toNat
  queueSize_eq : (m.word64 sizesAt).toNat = sizes.queueSize
  slotSize_eq : (m.word64 (sizesAt + 8)).toNat = sizes.slotSize
  eventSlots_eq : (m.word64 (sizesAt + 16)).toNat = sizes.eventSlots
  stride_eq : (m.word64 strideAt).toNat = (Layout.of sizes).stride
  size_le : (Layout.of sizes).totalSize ≤ size
  ringQueueSize_eq : (m.word64 (sizes.channel kind).packets.sizesAt).toNat = sizes.queueSize
  ringSlotSize_eq : (m.word64 ((sizes.channel kind).packets.sizesAt + 8)).toNat = sizes.slotSize

variable {kind : ChannelKind} {size : Nat}

theorem Accepts.run_readSizes (h : Accepts sizes kind size m) : readSizes.run m = (sizes, m) := by
  rw [Segment.run_readSizes, h.queueSize_eq, h.slotSize_eq, h.eventSlots_eq]

/-- **What is looked at decides**: then the channel is accepted. -/
theorem Accepts.run_verify (h : Accepts sizes kind size m) (name : String) :
    (verify name size kind).run m = (.ok (sizes.channel kind), m) := by
  have hheader : ¬size < headerSize := Nat.not_lt.2 (Nat.le_trans (Nat.le_add_right _ _) h.size_le)
  have hlayoutFor : layoutFor sizes = .ok (.of sizes) := by
    rw [layoutFor, Sizes.check_eq_ok_iff.2 h.valid, h.fits]
  have hchannel : Channel.ofLayout kind (.of sizes) sizes.eventSlots = sizes.channel kind := rfl
  simp only [verify, hheader, if_false, Access.run_bind, Access.run_word32, h.magic_eq, h.version_eq,
    Nat.not_le.2 h.index_lt, ne_eq, not_true_eq_false, h.run_readSizes, hlayoutFor, Access.run_word64, h.stride_eq,
    Nat.not_lt.2 h.size_le, hchannel, PacketRing.run_queueSize, PacketRing.run_slotSize, h.ringQueueSize_eq,
    h.ringSlotSize_eq, or_self, Access.run_pure]

/-- **A published header, and a channel whose ring carries its sizes, are accepted.** -/
theorem Published.accepts (h : Published sizes m) (hv : sizes.Valid) (hfits : Layout.of? sizes = some (.of sizes))
    (hring : (sizes.channel kind).packets.SetUp hv.geometry m) (hsize : (Layout.of sizes).totalSize ≤ size) :
    Accepts sizes kind size m := by
  have hq : (UInt64.ofNat sizes.queueSize).toNat = sizes.queueSize := hv.geometry.toNat_queueSize
  have hs : (UInt64.ofNat sizes.slotSize).toNat = sizes.slotSize := hv.geometry.toNat_slotSize
  have he : (UInt64.ofNat sizes.eventSlots).toNat = sizes.eventSlots := by
    rw [UInt64.toNat_ofNat', Nat.mod_eq_of_lt (Nat.lt_of_le_of_lt hv.eventSlots_le (by decide))]
  have hstride : (UInt64.ofNat (Layout.of sizes).stride).toNat = (Layout.of sizes).stride := by
    rw [UInt64.toNat_ofNat']
    exact Nat.mod_eq_of_lt (Layout.stride_lt hfits)
  refine ⟨hv, hfits, h.magic_eq, h.version_eq, ?_, ?_, ?_, ?_, ?_, hsize, ?_, ?_⟩
  · rw [h.channelCount_eq]
    exact kind.index_lt
  · rw [h.queueSize_eq, hq]
  · rw [h.slotSize_eq, hs]
  · rw [h.eventSlots_eq, he]
  · rw [h.stride_eq, hstride]
  · rw [hring.queueSize_eq]
    exact hq
  · rw [hring.slotSize_eq]
    exact hs

theorem of_layoutFor {layout : Layout} (h : layoutFor sizes = .ok layout) :
    sizes.Valid ∧ Layout.of? sizes = some layout := by
  unfold layoutFor at h
  split at h
  · cases h
  next hcheck =>
  split at h
  · cases h
  next hfits =>
  cases h
  exact ⟨Sizes.check_eq_ok_iff.1 hcheck, hfits⟩

/-- What comes of looking at a region: an error for the first thing that is not in order, or the channel. -/
inductive Verdict (name : String) (size : Nat) (kind : ChannelKind) (m : Memory) : Except Error Channel → Prop where
  | noHeader (h : size < headerSize) : Verdict name size kind m (.error (.truncated name headerSize size))
  | noMagic (h : m.word32 0 ≠ magic) : Verdict name size kind m (.error (.invalidMagic magic (m.word32 0)))
  | otherVersion (h : m.word32 versionAt ≠ version) :
    Verdict name size kind m (.error (.incompatibleVersion version (m.word32 versionAt)))
  | noChannel (h : (m.word32 channelCountAt).toNat ≤ kind.index) :
    Verdict name size kind m (.error (.indexOutOfRange kind.index (m.word32 channelCountAt).toNat))
  | badSizes {reason : String} (h : layoutFor (readSizes.run m).1 = .error reason) :
    Verdict name size kind m (.error (.corrupt name reason))
  | otherStride (reason : String) (h : (m.word64 strideAt).toNat ≠ (Layout.of (readSizes.run m).1).stride) :
    Verdict name size kind m (.error (.corrupt name reason))
  | cut (h : size < (Layout.of (readSizes.run m).1).totalSize) :
    Verdict name size kind m (.error (.truncated name (Layout.of (readSizes.run m).1).totalSize size))
  | otherRing (reason : String) : Verdict name size kind m (.error (.corrupt name reason))
  | accepted {sizes : Sizes} (h : Accepts sizes kind size m) : Verdict name size kind m (.ok (sizes.channel kind))

/-- **Whoever attaches looks, and only looks**, whatever there is to be seen. -/
theorem verdict_verify (name : String) (size : Nat) (kind : ChannelKind) (m : Memory) :
    ∃ answer, Verdict name size kind m answer ∧ (verify name size kind).run m = (answer, m) := by
  simp only [verify]
  split
  · next h => exact ⟨_, .noHeader h, rfl⟩
  simp only [Access.run_bind, Access.run_word32]
  split
  · next h => exact ⟨_, .noMagic h, rfl⟩
  next hmagic =>
  simp only [Access.run_bind, Access.run_word32]
  split
  · next h => exact ⟨_, .otherVersion h, rfl⟩
  next hversion =>
  simp only [Access.run_bind, Access.run_word32]
  split
  · next h => exact ⟨_, .noChannel h, rfl⟩
  next hindex =>
  have hreads : readSizes.run m = ((readSizes.run m).1, m) := by rw [run_readSizes]
  rw [Access.run_bind, hreads]
  dsimp only
  split
  · next h => exact ⟨_, .badSizes h, rfl⟩
  next layout hlayout =>
  obtain ⟨hv, hfits⟩ := of_layoutFor hlayout
  obtain rfl := Layout.of?_eq_some hfits
  simp only [Access.run_bind, Access.run_word64]
  split
  · next h => exact ⟨_, .otherStride _ h, rfl⟩
  next hstride =>
  split
  · next h => exact ⟨_, .cut h, rfl⟩
  next hsize =>
  simp only [Access.run_bind, PacketRing.run_queueSize, PacketRing.run_slotSize]
  split
  · exact ⟨_, .otherRing _, rfl⟩
  next hring =>
  simp only [not_or, ne_eq, Decidable.not_not] at hmagic hversion hstride hring
  rw [run_readSizes] at *
  exact ⟨_, .accepted ⟨hv, hfits, hmagic, hversion, Nat.lt_of_not_le hindex, rfl, rfl, rfl, hstride,
    Nat.le_of_not_lt hsize, hring.1, hring.2⟩, rfl⟩

theorem run_verify_snd (name : String) (size : Nat) (kind : ChannelKind) (m : Memory) :
    ((verify name size kind).run m).2 = m := by
  obtain ⟨answer, -, hrun⟩ := verdict_verify name size kind m
  rw [hrun]

/-- **Nothing else is accepted.** -/
theorem accepts_of_run_verify {name : String} {channel : Channel}
    (h : ((verify name size kind).run m).1 = .ok channel) :
    ∃ sizes : Sizes, Accepts sizes kind size m ∧ channel = sizes.channel kind := by
  obtain ⟨answer, hverdict, hrun⟩ := verdict_verify name size kind m
  rw [hrun] at h
  cases h
  cases hverdict with
  | accepted haccepts => exact ⟨_, haccepts, rfl⟩

end Segment

end MediaChannels
