import MediaChannels.Proofs.Channel.Layout
import MediaChannels.Proofs.Segment.Header
import MediaChannels.Proofs.SharedMemory

/-!
# Segments that were created

What the creator of a segment publishes, everybody can attach to by its name, whatever the name stood for before.

* `Live`: a segment whose region is backed, whose header is published and whose parts carry their sizes.
* `live_create`: a segment is live when it was created, and its channels are fresh.
* `create_error_iff`: it is not created if its region is not.
* `Live.attach`: all four channels of a live segment can be attached to.
* `ChannelHandle.Fresh.unused`: a channel whose parts are as they were set up answers as one that nobody has used.
* `attach_created`: what those who attach to a new segment find.
-/

namespace MediaChannels

/-- An index is that of a channel, or lies beyond all of them. -/
theorem ChannelKind.index_or_length_le (index : Nat) :
    (∃ kind : ChannelKind, kind.index = index) ∨ ChannelKind.all.length ≤ index :=
  match index with
  | 0 => .inl ⟨.video0, rfl⟩
  | 1 => .inl ⟨.video1, rfl⟩
  | 2 => .inl ⟨.audio, rfl⟩
  | 3 => .inl ⟨.input, rfl⟩
  | _ + 4 => .inr (Nat.le_add_left 4 _)

theorem ChannelKind.index_of_ofIndex {index : Nat} {kind : ChannelKind} (h : ofIndex index = .ok kind) :
    kind.index = index := by
  rcases index_or_length_le index with ⟨kind', rfl⟩ | hle
  · rw [ofIndex_index] at h
    cases h
    rfl
  · rw [ofIndex, List.getElem?_eq_none hle] at h
    cases h

namespace Segment

variable {segment : Segment} {s s' : SharedMemory} {name : String} {sizes : Sizes} {kind : ChannelKind}

/-- The bytes of a segment. -/
def bytes (segment : Segment) (s : SharedMemory) : Memory := (s.object segment.region.object).memory

/-- A segment that can be attached to and used. -/
structure Live (segment : Segment) (s : SharedMemory) : Prop where
  valid : segment.sizes.Valid
  layout_eq : segment.layout = .of segment.sizes
  fits : Layout.of? segment.sizes = some (.of segment.sizes)
  size_eq : segment.region.size = (Layout.of segment.sizes).totalSize
  backed : s.Backs segment.region
  published : Published segment.sizes (segment.bytes s)
  ready : ∀ (kind : ChannelKind) (part : ChannelPart), part.Ready valid kind (segment.bytes s)

/-- **A segment is live when it was created, and its channels are fresh.** -/
theorem live_create (h : create s name sizes = (.ok segment, s')) :
    segment.sizes = sizes ∧ segment.region.name = name ∧ segment.Live s' ∧
      ∃ hv : segment.sizes.Valid, ∀ (kind : ChannelKind) (part : ChannelPart),
        part.Fresh hv kind (segment.bytes s') := by
  unfold create at h
  split at h
  · cases h
  next hvalid =>
  split at h
  · cases h
  next layout hlayout =>
  split at h
  · cases h
  next region s₁ hregion =>
  cases h
  have hv := Sizes.validate_eq_ok_iff.1 hvalid
  obtain rfl := Layout.of?_eq_some hlayout
  obtain ⟨hbacked, hname, hsize, hzeroed⟩ := SharedMemory.Backs.of_create hregion
  have hmemory : ((s₁.access region.object (init sizes (.of sizes))).2.object region.object).memory =
      ((init sizes (.of sizes)).run .zeroed).2 := by
    rw [hbacked.memory_access, hzeroed]
  have hfresh (kind : ChannelKind) (part : ChannelPart) :
      part.Fresh hv kind ((s₁.access region.object (init sizes (.of sizes))).2.object region.object).memory := by
    rw [hmemory]
    exact fresh_init hv kind part
  refine ⟨rfl, hname, ⟨hv, rfl, hlayout, hsize, hbacked.access _, ?_, fun kind part => (hfresh kind part).ready⟩, hv,
    hfresh⟩
  show Published sizes ((s₁.access region.object (init sizes (.of sizes))).2.object region.object).memory
  rw [hmemory]
  exact published_init sizes .zeroed

/-- Creating succeeds if the region finds room, and its name leads to an object or nowhere. -/
theorem exists_create {layout : Layout} (hname : SharedMemory.checkName name = .ok ()) (hv : sizes.Valid)
    (hlayout : Layout.of? sizes = some layout) (hroom : layout.totalSize ≤ SharedMemory.addressSpace)
    (hfree : s.find? name = none ∨ ∃ number < s.objects.size, s.find? name = some (.object number)) :
    ∃ segment s', create s name sizes = (.ok segment, s') := by
  have hpos : 0 < layout.totalSize := Nat.lt_of_lt_of_le (by decide) (Nat.le_add_right _ _)
  obtain ⟨region, s', hregion⟩ := SharedMemory.exists_create hname hpos hroom hfree
  simp only [create, Sizes.validate_eq_ok_iff.2 hv, hlayout, hregion]
  exact ⟨_, _, rfl⟩

/-- With valid sizes, creating a segment fails exactly as creating its region does. -/
theorem create_error_iff {e : Error} (h : sizes.Valid) :
    (create s name sizes).1 = .error e ↔ (s.create name (Layout.of sizes).totalSize).1 = .error e := by
  rw [create, Sizes.validate_eq_ok_iff.2 h]
  simp only [Layout.of?_of_valid h]
  rcases s.create name (Layout.of sizes).totalSize with ⟨e' | region, s'⟩
  · simp
  · simp

/-! ## Attaching -/

/-- The channels of a live segment are where its sizes put them. -/
theorem Live.channel_eq (h : segment.Live s) (kind : ChannelKind) :
    (segment.channel kind).channel = segment.sizes.channel kind := by
  rw [channel, Sizes.channel, h.layout_eq]

/-- All that is looked at is in order. -/
theorem Live.accepts (h : segment.Live s) (kind : ChannelKind) :
    Accepts segment.sizes kind segment.region.size (segment.bytes s) :=
  h.published.accepts h.valid h.fits (h.ready kind .packets) (Nat.le_of_eq h.size_eq.symm)

/-- Everybody can attach to a channel that is accepted, in a region that is backed. -/
theorem attach_of_accepts {region : Region} (hbacked : s.Backs region)
    (h : Accepts sizes kind region.size (s.object region.object).memory) :
    Segment.attach s region.name kind.index =
      (.ok { region := { region with mapping := s.mappings, owner := false }, channel := sizes.channel kind },
        { s with mappings := s.mappings + 1 }) := by
  simp only [Segment.attach, ChannelKind.ofIndex_index, hbacked.openRegion, h.run_verify]

/-- **All four channels of a live segment can be attached to**, and are those of the creator. -/
theorem Live.attach (h : segment.Live s) (kind : ChannelKind) :
    Segment.attach s segment.region.name kind.index =
      (.ok { region := { segment.region with mapping := s.mappings, owner := false }
             channel := segment.sizes.channel kind }, { s with mappings := s.mappings + 1 }) :=
  attach_of_accepts h.backed (h.accepts kind)

/-- No other index is accepted. -/
theorem attach_of_le {index : Nat} (h : ChannelKind.all.length ≤ index) :
    Segment.attach s name index = (.error (.indexOutOfRange index ChannelKind.all.length), s) := by
  rw [Segment.attach, ChannelKind.ofIndex, List.getElem?_eq_none h]

end Segment

/-! ## New channels -/

namespace ChannelHandle

open Access

/-- What the answers of a channel are that nobody has used: it has the sizes that were asked for, nobody works on it,
there is no codec and no display selector, no cursor finds a packet, and every lane is empty. -/
structure Unused (handle : ChannelHandle) (sizes : Sizes) (s : SharedMemory) : Prop where
  queueSize_eq : (handle.ask .queueSize s).1.toNat = sizes.queueSize
  slotSize_eq : (handle.ask .slotSize s).1.toNat = sizes.slotSize
  writeIndex_eq : (handle.ask .writeIndex s).1 = 0
  isActive_eq : (handle.ask .isActive s).1 = false
  codec_eq : (handle.ask .codec s).1 = 0
  display_eq : (handle.ask .display s).1 = none
  next_eq : ∀ cursor, (handle.ask (.nextPacket (handle.ask (.pollPackets cursor) s).1) s).1.1 = none
  pending_eq : ∀ kind, (handle.ask (.pendingEvents kind) s).1 = 0
  peek_eq : ∀ kind, (handle.ask (.peekEvent kind) s).1 = none
  pop_eq : ∀ kind, (handle.ask (.popEvent kind) s).1 = none
  latest_eq : ∀ kind, (handle.ask (.latestEvent kind) s).1 = none

/-- The channel of a handle lies where the sizes put it, and each of its parts is ready and as it was set up: all slots
of the ring are whole and have room for a payload, all slots of the lanes are cleared, and the display selector has room
for its longest text. -/
structure Fresh (handle : ChannelHandle) (sizes : Sizes) (kind : ChannelKind) (s : SharedMemory) : Prop where
  channel_eq : handle.channel = sizes.channel kind
  valid : sizes.Valid
  fresh : ∀ part : ChannelPart, part.Fresh valid kind (s.object handle.region.object).memory

variable {handle : ChannelHandle} {sizes : Sizes} {kind : ChannelKind} {s : SharedMemory}

/-- Nobody has used a channel whose parts are fresh. -/
theorem Fresh.unused (h : handle.Fresh sizes kind s) : handle.Unused sizes s := by
  obtain ⟨hhandle, hv, h⟩ := h
  obtain ⟨hring, hindex⟩ := h .packets
  obtain ⟨-, htorn, hlength⟩ := h .display
  have hlane (k : ControlKind) : ((sizes.channel kind).events.lane k).Holds sizes.eventSlots 0 [] _ :=
    (h (.lane k)).holds
  constructor
  all_goals simp only [ask, SharedMemory.access, ChannelCall.perform, hhandle]
  · rw [PacketRing.run_queueSize, hring.queueSize_eq, hv.geometry.toNat_queueSize]
    rfl
  · rw [PacketRing.run_slotSize, hring.slotSize_eq, hv.geometry.toNat_slotSize]
    rfl
  · rw [PacketRing.run_writeIndex, hindex]
  · rw [Channel.run_isActive, h .active]
    rfl
  · simp only [Channel.codec, run_bind, run_word32, run_pure]
    rw [h .codec]
    rfl
  · have hempty : ((sizes.channel kind).displayLock.frameIn (s.object handle.region.object).memory).data = [] := by
      apply List.eq_nil_of_length_eq_zero
      simp [Seqlock.frameIn, hlength]
    rw [Channel.run_display, Seqlock.contents, if_neg htorn, Option.filter_some, hempty]
    rfl
  · intro cursor
    have hpoll : ((sizes.channel kind).packets.poll cursor).run (s.object handle.region.object).memory =
        ({ cursor, stop := 0 }, (s.object handle.region.object).memory) := by
      simp [PacketRing.poll, hindex]
    rw [hpoll, PacketRing.next_of_stop_le]
    · rfl
    · exact UInt64.le_iff_toNat_le.2 (Nat.zero_le _)
  · intro k
    exact congrArg Prod.fst (hlane k).run_pending
  · intro k
    exact Lane.run_take (hlane k) k false
  · intro k
    exact Lane.run_take (hlane k) k true
  · intro k
    rw [EventLanes.latest, run_bind]
    exact (Lane.run_lastAmong (hlane k) (Nat.zero_le _) none).1

/-- Handles on one channel of one object get the same answers, with the same effects. -/
theorem ask_congr {handle' : ChannelHandle} (hchannel : handle.channel = handle'.channel)
    (hobject : handle.region.object = handle'.region.object) {α : Type} (call : ChannelCall α) (s : SharedMemory) :
    handle.ask call s = handle'.ask call s := by
  simp only [ask, SharedMemory.access, hobject, ChannelCall.run_perform_congr hchannel]

end ChannelHandle

namespace Segment

/-- **What was created can be attached to.** Whatever its name stood for before, the four channels of a new segment can
be attached to, and no other index. Their parts are ready and nobody has used them yet. An attached handle addresses the
bytes that the handle of the creator addresses, and whatever is asked of the one has the answer and the effect that it
has when it is asked of the other. -/
theorem attach_created {s s' : SharedMemory} {name : String} {sizes : Sizes} {segment : Segment}
    (h : create s name sizes = (.ok segment, s')) (index : Nat) :
    (index < 4 → ∃ kind handle s'', kind.index = index ∧ attach s' name index = (.ok handle, s'') ∧
      handle.channel.kind = kind ∧ handle.Fresh sizes kind s'' ∧ handle.Unused sizes s'' ∧
        handle.region.object = segment.region.object ∧ handle.channel = (segment.channel kind).channel ∧
        ∀ {α : Type} (call : ChannelCall α) (t : SharedMemory),
          handle.ask call t = (segment.channel kind).ask call t) ∧
      (4 ≤ index → attach s' name index = (.error (.indexOutOfRange index 4), s')) := by
  obtain ⟨rfl, rfl, hlive, hv, hfresh⟩ := live_create h
  refine ⟨fun hlt => ?_, attach_of_le⟩
  obtain ⟨kind, rfl⟩ := (ChannelKind.index_or_length_le index).resolve_right (Nat.not_le.2 hlt)
  have hnew : ChannelHandle.Fresh
      { region := { segment.region with mapping := s'.mappings, owner := false }
        channel := segment.sizes.channel kind }
      segment.sizes kind { s' with mappings := s'.mappings + 1 } := ⟨rfl, hv, hfresh kind⟩
  have hsame : segment.sizes.channel kind = (segment.channel kind).channel := (hlive.channel_eq kind).symm
  refine ⟨kind, _, _, rfl, hlive.attach kind, rfl, hnew, hnew.unused, rfl, hsame, fun call t => ?_⟩
  apply ChannelHandle.ask_congr
  · exact hsame
  · rfl

/-- So it is for the smallest of segments, on the remains of another region. -/
theorem attach_created_on_remains :
    let s : SharedMemory :=
      { names := [("desk", .object 0)], objects := #[⟨3, Memory.zeroed.write 0 [255, 255, 255]⟩], mappings := 1 }
    ∃ segment s', create s "desk" { queueSize := 1, slotSize := 1, eventSlots := 1 } = (.ok segment, s') ∧
      (∃ kind handle s'', kind.index = 3 ∧ attach s' "desk" 3 = (.ok handle, s'') ∧ handle.channel.kind = kind ∧
        handle.Fresh { queueSize := 1, slotSize := 1, eventSlots := 1 } kind s'' ∧
        handle.Unused { queueSize := 1, slotSize := 1, eventSlots := 1 } s'' ∧
        handle.region.object = segment.region.object ∧ handle.channel = (segment.channel kind).channel ∧
          ∀ {α : Type} (call : ChannelCall α) (t : SharedMemory),
            handle.ask call t = (segment.channel kind).ask call t) ∧
      attach s' "desk" 4 = (.error (.indexOutOfRange 4 4), s') := by
  intro s
  have hcreated : ∃ segment s',
      create s "desk" { queueSize := 1, slotSize := 1, eventSlots := 1 } = (.ok segment, s') :=
    exists_create rfl (Sizes.check_eq_ok_iff.1 rfl) rfl (by decide) (.inr ⟨0, by decide, rfl⟩)
  obtain ⟨segment, s', h⟩ := hcreated
  exact ⟨segment, s', h, (attach_created h 3).1 (by decide), (attach_created h 4).2 (by decide)⟩

end Segment

end MediaChannels
