import MediaChannels.Proofs.Channel.Display
import MediaChannels.Proofs.EventLanes.Footprint
import MediaChannels.Proofs.PacketRing.Footprint
import MediaChannels.Segment

/-!
# The parts of the channels of a segment

A channel has eight parts: active flag, codec, display selector, one event lane for each kind, and packet ring. Where
they lie follows from the three sizes of the segment.

* `ChannelPart.disjoint`: different parts do not overlap, whether they belong to one channel or to two.
* `ChannelPart.start_bounds`: all of them lie behind the header and inside the segment.
* `ChannelPart.Ready`: a part carries the sizes for which room was reserved.
* `agree_part_of_within`: a program that stays within some parts leaves every other part as it was.
-/

namespace MediaChannels

/-- The channel of a kind in a segment with sizes. -/
def Sizes.channel (sizes : Sizes) (kind : ChannelKind) : Channel := .ofLayout kind (.of sizes) sizes.eventSlots

/-- A ring can be set up with the sizes of a segment. -/
def Sizes.Valid.geometry {sizes : Sizes} (h : sizes.Valid) : PacketRing.Geometry where
  queueSize := sizes.queueSize
  slotSize := sizes.slotSize
  queueSize_pos := h.queueSize_pos
  queueSize_lt := Nat.lt_of_le_of_lt h.queueSize_le (by decide)
  slotSize_lt := Nat.lt_of_le_of_lt h.slotSize_le (by decide)

/-- The parts of a channel. -/
inductive ChannelPart where
  | active
  | codec
  | display
  | lane (kind : ControlKind)
  | packets
  deriving DecidableEq, Repr

namespace ChannelPart

/-- Position of a part among those of its channel. -/
def rank : ChannelPart → Nat
  | active => 0
  | codec => 1
  | display => 2
  | lane kind => 3 + kind.lane
  | packets => 7

theorem rank_ne {part part' : ChannelPart} (h : part ≠ part') : part.rank ≠ part'.rank := by
  rcases part with _ | _ | _ | ⟨_ | _ | _ | _⟩ | _ <;> rcases part' with _ | _ | _ | ⟨_ | _ | _ | _⟩ | _ <;>
    first | exact absurd rfl h | decide

/-! ## Where the parts lie -/

section Places

variable (sizes : Sizes) (kind : ChannelKind)

/-- Where a part starts. -/
def start : ChannelPart → Nat
  | active => (sizes.channel kind).base
  | codec => (sizes.channel kind).codecAt
  | display => (sizes.channel kind).displayLock.base
  | lane k => ((sizes.channel kind).events.lane k).base
  | packets => (sizes.channel kind).packets.base

/-- Where a part ends. -/
def stop : ChannelPart → Nat
  | active => (sizes.channel kind).base + 1
  | codec => (sizes.channel kind).codecAt + 4
  | display => (sizes.channel kind).displayLock.base + Seqlock.size Layout.displayCapacity
  | lane k => ((sizes.channel kind).events.lane k).stop sizes.eventSlots
  | packets => (sizes.channel kind).packets.base + PacketRing.size sizes.queueSize sizes.slotSize

theorem lane_bounds (k : ControlKind) :
    (sizes.channel kind).events.base ≤ (lane k).start sizes kind ∧
      (lane k).stop sizes kind ≤ (sizes.channel kind).packets.base := by
  have hend := (sizes.channel kind).events.laneAt_add_stride_le_size k
  refine ⟨Nat.le_add_right _ _, Nat.le_trans hend ?_⟩
  simp only [Channel.events, Channel.packets, Sizes.channel, Channel.ofLayout, Layout.of]
  omega

variable {sizes kind} {part part' : ChannelPart}

/-- The parts of a channel follow one another. -/
theorem stop_le_start (h : part.rank < part'.rank) : part.stop sizes kind ≤ part'.start sizes kind := by
  have hcodec : (sizes.channel kind).codecAt = (sizes.channel kind).base + 64 := rfl
  have hdisplay : (sizes.channel kind).displayLock.base = (sizes.channel kind).base + 128 := rfl
  have hevents : (sizes.channel kind).displayLock.base + Seqlock.size Layout.displayCapacity =
      (sizes.channel kind).events.base := Nat.add_assoc _ _ _
  have hpackets : (sizes.channel kind).events.base ≤ (sizes.channel kind).packets.base := by
    obtain ⟨-, hblocks, -⟩ := Layout.blocks_le sizes
    simp only [Channel.events, Channel.packets, Sizes.channel, Channel.ofLayout]
    omega
  cases part' with
  | active => exact absurd h (Nat.not_lt_zero _)
  | codec =>
    cases part <;> simp only [rank, start, stop] at h ⊢ <;> omega
  | display =>
    cases part <;> simp only [rank, start, stop] at h ⊢ <;> omega
  | lane k =>
    have hlane := (lane_bounds sizes kind k).1
    have hlast := k.lane_lt
    rw [show ControlKind.all.length = 4 from rfl] at hlast
    cases part with
    | lane k' =>
      refine EventLanes.laneAt_add_stride_le _ ?_
      simp only [rank] at h
      omega
    | _ =>
      simp only [rank, start, stop] at h hlane ⊢
      omega
  | packets =>
    cases part with
    | lane k' => exact (lane_bounds sizes kind k').2
    | _ =>
      simp only [rank, start, stop] at h ⊢
      omega

theorem base_le_start : (sizes.channel kind).base ≤ part.start sizes kind := by
  rcases Nat.eq_zero_or_pos part.rank with h | h
  · cases part with
    | active => exact Nat.le_refl _
    | lane k => simp only [rank] at h; omega
    | _ => exact absurd h (by decide)
  · have hactive : active.stop sizes kind ≤ part.start sizes kind := stop_le_start h
    simp only [stop] at hactive
    omega

theorem stop_le_next : part.stop sizes kind ≤ (sizes.channel kind).base + (Layout.of sizes).stride := by
  have hpackets : packets.stop sizes kind ≤ (sizes.channel kind).base + (Layout.of sizes).stride := by
    obtain ⟨-, -, hblocks⟩ := Layout.blocks_le sizes
    simp only [stop, Channel.packets, Sizes.channel, Channel.ofLayout]
    omega
  have hrest : part ≠ packets → part.stop sizes kind ≤ packets.start sizes kind := by
    intro hne
    apply stop_le_start
    cases part with
    | packets => exact absurd rfl hne
    | lane k =>
      have hk := k.lane_lt
      simp only [rank, show ControlKind.all.length = 4 from rfl] at hk ⊢
      omega
    | _ => decide
  by_cases hp : part = packets
  · rw [hp]
    exact hpackets
  · refine Nat.le_trans (hrest hp) (Nat.le_trans ?_ hpackets)
    simp only [start, stop]
    omega

theorem channel_le {kind kind' : ChannelKind} (h : kind.index < kind'.index) :
    (sizes.channel kind).base + (Layout.of sizes).stride ≤ (sizes.channel kind').base := by
  have hm := Nat.mul_le_mul_right (Layout.of sizes).stride h
  rw [Nat.succ_mul] at hm
  simp only [Sizes.channel, Channel.ofLayout]
  omega

/-- Channels do not overlap. -/
theorem channel_apart (sizes : Sizes) {kind kind' : ChannelKind} (h : kind ≠ kind') :
    (sizes.channel kind).base + (Layout.of sizes).stride ≤ (sizes.channel kind').base ∨
      (sizes.channel kind').base + (Layout.of sizes).stride ≤ (sizes.channel kind).base := by
  have hindex : kind.index ≠ kind'.index := by
    cases kind <;> cases kind' <;> first | exact absurd rfl h | decide
  exact (Nat.lt_or_gt_of_ne hindex).imp channel_le channel_le

/-- **Different parts do not overlap**, whether they belong to one channel or to two. -/
theorem disjoint {kind kind' : ChannelKind} (h : kind ≠ kind' ∨ part ≠ part') :
    part.stop sizes kind ≤ part'.start sizes kind' ∨ part'.stop sizes kind' ≤ part.start sizes kind := by
  by_cases hk : kind = kind'
  · subst hk
    obtain hp := h.resolve_left (not_not_intro rfl)
    exact (Nat.lt_or_gt_of_ne (rank_ne hp)).imp stop_le_start stop_le_start
  · refine (channel_apart sizes hk).imp (fun hlt => ?_) fun hlt => ?_
    · exact Nat.le_trans stop_le_next (Nat.le_trans hlt base_le_start)
    · exact Nat.le_trans stop_le_next (Nat.le_trans hlt base_le_start)

/-- **All parts lie behind the header and inside the segment.** -/
theorem start_bounds (part : ChannelPart) (sizes : Sizes) (kind : ChannelKind) :
    Segment.headerSize ≤ part.start sizes kind ∧ part.stop sizes kind ≤ (Layout.of sizes).totalSize := by
  have hbase : Segment.headerSize ≤ (sizes.channel kind).base := Nat.le_add_right _ _
  have hm := Nat.mul_le_mul_right (Layout.of sizes).stride kind.index_lt
  refine ⟨Nat.le_trans hbase base_le_start, Nat.le_trans stop_le_next ?_⟩
  rw [Nat.succ_mul] at hm
  simp only [Sizes.channel, Channel.ofLayout, Layout.totalSize]
  rw [Nat.mul_comm (Layout.of sizes).stride]
  omega

end Places

/-! ## Parts that carry their sizes -/

section Ready

variable {sizes : Sizes}

/-- The sizes that a part carries are those for which room was reserved: the size of the display selector, the number
of slots of a lane, and the sizes of the ring and of each of its slots. What else stands in the part may be anything. -/
def Ready (hv : sizes.Valid) (kind : ChannelKind) (m : Memory) : ChannelPart → Prop
  | active | codec => True
  | display => (sizes.channel kind).DisplayReady m
  | lane k => ((sizes.channel kind).events.lane k).Sized sizes.eventSlots m
  | packets => (sizes.channel kind).packets.SetUp hv.geometry m

variable {hv : sizes.Valid} {kind : ChannelKind} {m m' : Memory}

/-- Only the bytes of a part matter for its sizes. -/
theorem Ready.congr {part : ChannelPart} (h : part.Ready hv kind m)
    (ha : Memory.Agree (part.start sizes kind) (part.stop sizes kind) m' m) : part.Ready hv kind m' := by
  cases part with
  | active => trivial
  | codec => trivial
  | display =>
    have hheader : (sizes.channel kind).displayLock.base + Seqlock.headerSize ≤
        display.stop sizes kind := Nat.add_le_add_left (by decide) _
    exact (Seqlock.capacityIn_congr ha hheader).trans h
  | lane k => exact Lane.Sized.congr h ha
  | packets => exact PacketRing.SetUp.congr h ha

end Ready

/-! ## Programs within some parts -/

/-- The intervals inside of some parts of a channel. -/
def Within (sizes : Sizes) (kind : ChannelKind) (parts : List ChannelPart) (lo hi : Nat) : Prop :=
  ∃ part ∈ parts, Access.Inside (part.start sizes kind) (part.stop sizes kind) lo hi

section Within

variable {sizes : Sizes} {kind kind' : ChannelKind} {parts : List ChannelPart} {part : ChannelPart} {α : Type}
  {p : Access α} {m : Memory}

theorem within_of_mem (hmem : part ∈ parts)
    (h : p.Within (Access.Inside (part.start sizes kind) (part.stop sizes kind)) m) :
    p.Within (Within sizes kind parts) m := h.mono fun _ _ hin => ⟨part, hmem, hin⟩

/-- **A program within some parts leaves every other part as it was.** -/
theorem agree_part_of_within (h : p.Within (Within sizes kind parts) m) (hapart : kind ≠ kind' ∨ part ∉ parts) :
    Memory.Agree (part.start sizes kind') (part.stop sizes kind') (p.run m).2 m := by
  apply Access.agree_run_of_within h
  rintro lo hi ⟨part', hmem, hlo, hhi⟩
  have hne : kind ≠ kind' ∨ part' ≠ part := hapart.imp_right fun hn he => hn (he ▸ hmem)
  have hdisjoint : part'.stop sizes kind ≤ part.start sizes kind' ∨ part.stop sizes kind' ≤ part'.start sizes kind :=
    disjoint hne
  rcases hdisjoint with hd | hd
  · exact .inr (Nat.le_trans hhi hd)
  · exact .inl (Nat.le_trans hd hlo)

/-- So does it leave the header. -/
theorem agree_header_of_within (h : p.Within (Within sizes kind parts) m) :
    Memory.Agree 0 Segment.headerSize (p.run m).2 m := by
  apply Access.agree_run_of_within h
  rintro lo hi ⟨part', -, hlo, -⟩
  exact .inl (Nat.le_trans (part'.start_bounds sizes kind).1 hlo)

/-- And it is safe in a region that has room for the segment. -/
theorem safe_of_within {size : Nat} (h : p.Within (Within sizes kind parts) m)
    (hsize : (Layout.of sizes).totalSize ≤ size) : p.Safe size m := by
  apply Access.safe_of_within h
  rintro lo hi ⟨part', -, -, hhi⟩
  exact Nat.le_trans hhi (Nat.le_trans (part'.start_bounds sizes kind).2 hsize)

end Within

end ChannelPart

end MediaChannels
