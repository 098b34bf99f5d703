import MediaChannels.Proofs.Channel.Layout
import MediaChannels.Proofs.Segment.Created
import MediaChannels.Proofs.Words

/-!
# Attaching to anything

A name may lead to a region of any size with any bytes in it. Attaching to it reads seven numbers of the header and two
of the ring that the header leads to, and computes with them before it is known whether they mean anything.

* `verifyExact`: `verify`, which fails at the first sum or product that is no word; `run_verifyExact`: none is met.
* `safe_verify`: no check looks beyond the end of the region.
* `Admits`: what has to be found, word by word; `admits_iff_accepts`: it is what `Accepts` says of the sizes found.
* `attach_ok_iff_admits`: attaching is safe on any memory, its sums are exact, and it gives a handle if and only if the
  region admits the index.
-/

namespace MediaChannels

namespace Access

variable {α : Type} {allowed : Nat → Nat → Prop}

theorem within_word32_bind (offset : Nat) (f : UInt32 → Access α) (m : Memory) :
    (word32 offset >>= f).Within allowed m ↔ allowed offset (offset + 4) ∧ (f (m.word32 offset)).Within allowed m := by
  rw [within_bind, within_word32, run_word32]

theorem within_word64_bind (offset : Nat) (f : UInt64 → Access α) (m : Memory) :
    (word64 offset >>= f).Within allowed m ↔ allowed offset (offset + 8) ∧ (f (m.word64 offset)).Within allowed m := by
  rw [within_bind, within_word64, run_word64]

end Access

namespace Segment

open Access

variable {sizes : Sizes} {kind : ChannelKind} {size : Nat} {m : Memory} {s : SharedMemory} {name : String}
  {index number : Nat}

/-! ## Sums and products -/

/-- `layoutFor`; none is the answer as soon as a sum or a product is no word. -/
def layoutForExact? (sizes : Sizes) : Option (Except String Layout) :=
  match sizes.check with
  | .error fault => some (.error fault.message)
  | .ok () => (Layout.ofExact? sizes).map .ok

/-- `verify`; none is the answer as soon as a sum or a product is no word. -/
def verifyExact (name : String) (size : Nat) (kind : ChannelKind) : Access (Option (Except Error Channel)) :=
  if size < headerSize then pure (some (.error (.truncated name headerSize size)))
  else do
    let foundMagic ← Access.word32 0
    if foundMagic ≠ magic then return some (.error (.invalidMagic magic foundMagic))
    let foundVersion ← Access.word32 versionAt
    if foundVersion ≠ version then return some (.error (.incompatibleVersion version foundVersion))
    let channelCount ← Access.word32 channelCountAt
    if channelCount.toNat ≤ kind.index then
      return some (.error (.indexOutOfRange kind.index channelCount.toNat))
    let sizes ← readSizes
    match layoutForExact? sizes with
    | none => return none
    | some (.error reason) => return some (.error (.corrupt name reason))
    | some (.ok layout) =>
      let stride ← Access.word64 strideAt
      if stride.toNat ≠ layout.stride then
        return some (.error
          (.corrupt name s!"channel stride {stride.toNat} does not match computed {layout.stride}"))
      match layout.totalSizeExact? with
      | none => return none
      | some total =>
        if size < total then return some (.error (.truncated name total size))
        match Channel.ofLayoutExact? kind layout sizes.eventSlots with
        | none => return none
        | some channel =>
          let queueSize ← channel.packets.queueSize
          let slotSize ← channel.packets.slotSize
          if queueSize.toNat ≠ sizes.queueSize ∨ slotSize.toNat ≠ sizes.slotSize then
            let held := s!"{queueSize.toNat}x{slotSize.toNat}"
            let said := s!"{sizes.queueSize}x{sizes.slotSize}"
            return some (.error
              (.corrupt name s!"{kind.name} ring holds {held} bytes, segment says {said}"))
          return some (.ok channel)

/-- The layout is computed only for sizes that were checked, and for these it is exact. -/
theorem layoutForExact?_eq (sizes : Sizes) : layoutForExact? sizes = some (layoutFor sizes) := by
  unfold layoutForExact? layoutFor
  cases hcheck : sizes.check with
  | error fault => rfl
  | ok =>
    have hv := Sizes.check_eq_ok_iff.1 hcheck
    rw [hv.layoutOfExact?_eq, Layout.of?_of_valid hv]
    rfl

/-- **No sum and no product overflows**, whatever stands in memory. -/
theorem run_verifyExact (name : String) (size : Nat) (kind : ChannelKind) (m : Memory) :
    (verifyExact name size kind).run m = (some ((verify name size kind).run m).1, m) := by
  simp only [verifyExact, verify]
  split
  · rfl
  simp only [Access.run_bind, Access.run_word32]
  split
  · rfl
  simp only [Access.run_bind, Access.run_word32]
  split
  · rfl
  simp only [Access.run_bind, Access.run_word32]
  split
  · rfl
  simp only [Access.run_bind, run_readSizes, layoutForExact?_eq]
  split
  · next hnone => cases hnone
  · next hlayout =>
    rw [Option.some.inj hlayout]
    rfl
  next layout hlayout =>
  -- There is a layout only for valid sizes, and for these all that is computed from it is exact.
  rw [Option.some.injEq] at hlayout
  obtain ⟨hv, hfits⟩ := of_layoutFor hlayout
  obtain rfl := Layout.of?_eq_some hfits
  simp only [hlayout, Access.run_bind, Access.run_word64, hv.totalSizeExact?_eq, hv.channelOfLayoutExact?_eq]
  split
  · rfl
  split
  · rfl
  simp only [Access.run_bind, PacketRing.run_queueSize, PacketRing.run_slotSize]
  split
  · rfl
  · rfl

/-! ## Bounds -/

/-- **No check looks beyond the end of the region**, whatever stands in memory: the header is read only if the region is
large enough for one, and the ring only if it is large enough for all that the header describes. -/
theorem safe_verify (name : String) (size : Nat) (kind : ChannelKind) (m : Memory) :
    (verify name size kind).Safe size m := by
  rw [Access.safe_iff_within, verify]
  split
  · exact within_pure _ _
  next hsize =>
  have hword {offset : Nat} (h : offset ≤ headerSize) : offset ≤ size := Nat.le_trans h (Nat.le_of_not_lt hsize)
  refine (within_word32_bind _ _ _).2 ⟨hword (by decide), ?_⟩
  split
  · exact within_pure _ _
  refine (within_word32_bind _ _ _).2 ⟨hword (by decide), ?_⟩
  split
  · exact within_pure _ _
  refine (within_word32_bind _ _ _).2 ⟨hword (by decide), ?_⟩
  split
  · exact within_pure _ _
  rw [within_bind, run_readSizes]
  refine ⟨?_, ?_⟩
  · simp only [readSizes, within_bind, within_word64, within_pure, and_true]
    exact ⟨hword (by decide), hword (by decide), hword (by decide)⟩
  generalize (⟨(m.word64 sizesAt).toNat, (m.word64 (sizesAt + 8)).toNat,
    (m.word64 (sizesAt + 16)).toNat⟩ : Sizes) = sizes
  split
  · exact within_pure _ _
  next layout hlayout =>
  refine (within_word64_bind _ _ _).2 ⟨hword (by decide), ?_⟩
  split
  · exact within_pure _ _
  split
  · exact within_pure _ _
  next htotal =>
  -- The layout is that of the sizes found, so the ring lies inside the segment.
  obtain ⟨-, hfits⟩ := of_layoutFor hlayout
  obtain rfl := Layout.of?_eq_some hfits
  have hstop : (sizes.channel kind).packets.base + PacketRing.size sizes.queueSize sizes.slotSize ≤ size :=
    Nat.le_trans (ChannelPart.packets.start_bounds sizes kind).2 (Nat.le_of_not_lt htotal)
  have hheader : PacketRing.headerSize ≤ PacketRing.size sizes.queueSize sizes.slotSize := Nat.le_add_right _ _
  have hsizesAt : (sizes.channel kind).packets.sizesAt + 16 ≤ size := by
    simp only [PacketRing.sizesAt, PacketRing.headerSize, cacheLine] at *
    omega
  refine (within_word64_bind _ _ _).2 ⟨Nat.le_trans (Nat.le_add_right _ 8) hsizesAt, ?_⟩
  refine (within_word64_bind _ _ _).2 ⟨hsizesAt, ?_⟩
  split
  · exact within_pure _ _
  · exact within_pure _ _

/-! ## What is admitted -/

/-- The sizes that the header gives. -/
def headerSizes (m : Memory) : Sizes :=
  ⟨(m.word64 16).toNat, (m.word64 24).toNat, (m.word64 32).toNat⟩

/-- Where the ring of the channel with an index starts, if the header gives the sizes. -/
def ringAt (sizes : Sizes) (index : Nat) : Nat := 128 + index * (Layout.of sizes).stride + (Layout.of sizes).packets

/-- A region of `size` bytes in which all is found that somebody looks at who attaches to the channel with an index. -/
structure Admits (index size : Nat) (m : Memory) : Prop where
  index_lt : index < 4
  header_le : 128 ≤ size
  magic_eq : m.word32 0 = 0x53544D48
  version_eq : m.word32 4 = 1
  index_lt_count : index < (m.word32 8).toNat
  queueSize_mem : 1 ≤ (headerSizes m).queueSize ∧ (headerSizes m).queueSize ≤ 65536
  slotSize_mem : 1 ≤ (headerSizes m).slotSize ∧ (headerSizes m).slotSize ≤ 2 ^ 32 - 1
  eventSlots_mem : 1 ≤ (headerSizes m).eventSlots ∧ (headerSizes m).eventSlots ≤ 65536
  stride_eq : (m.word64 40).toNat = (Layout.of (headerSizes m)).stride
  size_le : 128 + 4 * (Layout.of (headerSizes m)).stride ≤ size
  ringQueueSize_eq : (m.word64 (ringAt (headerSizes m) index + 64)).toNat = (headerSizes m).queueSize
  ringSlotSize_eq : (m.word64 (ringAt (headerSizes m) index + 72)).toNat = (headerSizes m).slotSize

theorem valid_iff (sizes : Sizes) :
    sizes.Valid ↔ (1 ≤ sizes.queueSize ∧ sizes.queueSize ≤ 65536) ∧
      (1 ≤ sizes.slotSize ∧ sizes.slotSize ≤ 2 ^ 32 - 1) ∧ 1 ≤ sizes.eventSlots ∧ sizes.eventSlots ≤ 65536 :=
  ⟨fun h => ⟨⟨h.queueSize_pos, h.queueSize_le⟩, ⟨h.slotSize_pos, h.slotSize_le⟩, h.eventSlots_pos, h.eventSlots_le⟩,
    fun ⟨⟨h₁, h₂⟩, ⟨h₃, h₄⟩, h₅, h₆⟩ => ⟨h₁, h₂, h₃, h₄, h₅, h₆⟩⟩

/-- **A region admits the index of a channel if and only if it is accepted** for the sizes found in its header. -/
theorem admits_iff_accepts : Admits kind.index size m ↔ ∃ sizes, Accepts sizes kind size m := by
  constructor
  · intro h
    have hv := (valid_iff _).2 ⟨h.queueSize_mem, h.slotSize_mem, h.eventSlots_mem⟩
    refine ⟨headerSizes m, hv, Layout.of?_of_valid hv, h.magic_eq, h.version_eq, h.index_lt_count, rfl, rfl, rfl,
      h.stride_eq, ?_, h.ringQueueSize_eq, h.ringSlotSize_eq⟩
    rw [Layout.totalSize_eq]
    exact h.size_le
  · rintro ⟨sizes, h⟩
    obtain rfl : headerSizes m = sizes := congrArg Prod.fst ((run_readSizes m).symm.trans h.run_readSizes)
    obtain ⟨hqueueSize, hslotSize, heventSlots⟩ := (valid_iff _).1 h.valid
    have hsize := h.size_le
    rw [Layout.totalSize_eq] at hsize
    exact ⟨kind.index_lt, by omega, h.magic_eq, h.version_eq, h.index_lt, hqueueSize, hslotSize, heventSlots,
      h.stride_eq, hsize, h.ringQueueSize_eq, h.ringSlotSize_eq⟩

/-! ## Attaching -/

/-- What is mapped when a name leads to an object that finds room. -/
theorem openRegion_of_object (hname : SharedMemory.checkName name = .ok ())
    (hobject : s.find? name = some (.object number)) (hpos : 1 ≤ (s.object number).size)
    (hroom : (s.object number).size ≤ SharedMemory.addressSpace) :
    s.openRegion name =
      (.ok { mapping := s.mappings, object := number, size := (s.object number).size, name, owner := false },
        { s with mappings := s.mappings + 1 }) := by
  simp only [SharedMemory.openRegion, hname, hobject, SharedMemory.map, Nat.ne_of_gt hpos, Nat.not_lt.2 hroom,
    if_false]

/-- **Attaching copes with anything.** Whatever bytes a region of whatever size holds, attaching to it looks at nothing
beyond its end and meets no overflow, and it succeeds if and only if the region admits the index. -/
theorem attach_ok_iff_admits (hname : SharedMemory.checkName name = .ok ())
    (hobject : s.find? name = some (.object number)) (hpos : 1 ≤ (s.object number).size)
    (hroom : (s.object number).size ≤ SharedMemory.addressSpace) (index : Nat) :
    let size := (s.object number).size
    let m := (s.object number).memory
    (∀ kind, ChannelKind.ofIndex index = .ok kind →
      (verify name size kind).Safe size m ∧
        (verifyExact name size kind).run m = (some ((verify name size kind).run m).1, m)) ∧
    ((∃ handle, (attach s name index).1 = .ok handle) ↔ Admits index size m) := by
  intro size m
  refine ⟨fun kind _ => ⟨safe_verify name size kind m, run_verifyExact name size kind m⟩, ?_⟩
  have hopen := openRegion_of_object hname hobject hpos hroom
  rcases ChannelKind.index_or_length_le index with ⟨kind, rfl⟩ | hle
  · rw [admits_iff_accepts]
    simp only [attach, ChannelKind.ofIndex_index, hopen]
    constructor
    · rintro ⟨handle, h⟩
      split at h
      · cases h
      next hverify =>
      obtain ⟨sizes, haccepts, -⟩ := accepts_of_run_verify (congrArg Prod.fst hverify)
      exact ⟨sizes, haccepts⟩
    · rintro ⟨sizes, h⟩
      rw [h.run_verify]
      exact ⟨_, rfl⟩
  · rw [attach_of_le hle]
    constructor
    · rintro ⟨_, h⟩
      cases h
    · intro h
      exact absurd h.index_lt (Nat.not_lt.2 hle)

/-- So a new segment lets everybody attach under the index of its last channel, and nobody under the next. -/
theorem attach_created_index :
    ∃ (segment : Segment) (s : SharedMemory),
      create .empty "desk" { queueSize := 2, slotSize := 64, eventSlots := 1 } = (.ok segment, s) ∧
      (∃ handle, (attach s "desk" 3).1 = .ok handle) ∧ ¬∃ handle, (attach s "desk" 4).1 = .ok handle := by
  obtain ⟨segment, s, h⟩ : ∃ segment s,
      create .empty "desk" { queueSize := 2, slotSize := 64, eventSlots := 1 } = (.ok segment, s) :=
    exists_create rfl (Sizes.check_eq_ok_iff.1 rfl) rfl (by decide) (.inl rfl)
  obtain ⟨-, hname, hlive, -⟩ := live_create h
  have hbacked := hlive.backed
  have hobject : s.find? "desk" = some (.object segment.region.object) := hname ▸ hbacked.named
  have hpos := hbacked.size_eq ▸ hbacked.size_pos
  have hroom := hbacked.size_eq ▸ hbacked.size_le
  have haccepts := hlive.accepts .input
  rw [← hbacked.size_eq] at haccepts
  have hadmits : Admits 3 (s.object segment.region.object).size (s.object segment.region.object).memory :=
    admits_iff_accepts.2 ⟨segment.sizes, haccepts⟩
  refine ⟨segment, s, h, (attach_ok_iff_admits rfl hobject hpos hroom 3).2.2 hadmits, fun hattached => ?_⟩
  exact absurd ((attach_ok_iff_admits rfl hobject hpos hroom 4).2.1 hattached).index_lt (by decide)

end Segment

end MediaChannels
