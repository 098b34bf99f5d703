import MediaChannels.Proofs.PacketRing.Published

/-!
# A producer that dies while it publishes

A push makes its stores in one order: the odd sequence number, the header of the frame, the payload, the even sequence
number, and the number of packets. A producer may die after any of them.

* `found_crash_push`: what is found afterwards under the last indices. Only the packet whose slot was being rewritten is
  lost, and nothing of the unpublished packet is found in its place.
* `holds_crash_push`: so the ring holds all other packets.
* `drain_crash_push`: what a walk then delivers, and what it counts as skipped.
-/

namespace MediaChannels

namespace PacketRing

variable {ring : PacketRing} {g : Geometry} {m : Memory} {packets : List Packet} {packet : Packet}

/-- The stores of a push: two of the sequence number, one of the number of packets, and one for each byte of the
frame. -/
def pushStores (packet : Packet) : Nat := Seqlock.frameHeaderSize + packet.data.length + 3

/-- A push of a packet that stops after so many stores has begun and has not ended. -/
def Underway (packet : Packet) (stores : Nat) : Prop := 0 < stores ∧ stores < pushStores packet

instance (packet : Packet) (stores : Nat) : Decidable (Underway packet stores) := inferInstanceAs (Decidable (_ ∧ _))

/-- The packet gives its slot up to the packet that is published after `count` others. -/
def Displaced (g : Geometry) (count : Nat) (x : IndexedPacket) : Prop := x.index.toNat + g.queueSize = count + 1

instance (g : Geometry) (count : Nat) (x : IndexedPacket) : Decidable (Displaced g count x) :=
  inferInstanceAs (Decidable (_ = _))

/-! ## The slot that was being rewritten -/

/-- Until the last store of a push, its slot is torn, or holds the packet that is not published yet. -/
theorem contents_crash_push (h : ring.SetUp g m) (hw : ¬(ring.slotAt g (ring.nextPlace g m)).Torn m)
    (hp : packet.data.length ≤ g.slotSize) {stores : Nat} (hs : Underway packet stores) :
    (ring.slotAt g (ring.nextPlace g m)).contents ((ring.push packet).crash stores m) = none ∨
      (ring.slotAt g (ring.nextPlace g m)).contents ((ring.push packet).crash stores m) =
        some (packet.frame (ring.nextIndex m)) := by
  have hi := ring.nextPlace_lt g m
  have hcut := cut_slotAt h hp hi (ring.nextIndex m)
  rw [crash_push_of_lt h hp hs.2]
  rcases Nat.lt_or_ge stores (Seqlock.frameHeaderSize + packet.data.length + 2) with hlt | hge
  · left
    rw [Seqlock.contents, if_pos]
    rw [Seqlock.torn_crash_write_iff, hcut, if_pos ⟨hs.1, hlt⟩]
    exact hw
  · right
    rw [Seqlock.crash_write_of_le _ _ (by rwa [hcut]), Seqlock.contents_run_write, if_neg hw, hcut]
    · rfl
    · rw [h.capacityIn hi]
      exact g.slotSize_lt

/-- **After a push that did not end, every packet of the ring is found but the one whose slot was being rewritten.** -/
theorem found_crash_push (h : ring.Healthy g packets m) (hp : packet.data.length ≤ g.slotSize) {stores : Nat}
    (hs : Underway packet stores) {i : Nat} (hi : i < packets.length) (hq : packets.length ≤ i + g.queueSize) :
    ring.found ((ring.push packet).crash stores m) (.ofNat (i + 1)) =
      if i + g.queueSize = packets.length then none else some { index := .ofNat (i + 1), packet := packets[i] } := by
  have hw : ¬(ring.slotAt g (ring.nextPlace g m)).Torn m :=
    fun ht => Bool.false_ne_true ((h.torn_iff _ (ring.nextPlace_lt g m)).1 ht)
  have ht := touches_crash_push h.setUp hp stores
  have hset := h.setUp.of_touches ht
  have hl := h.length_lt
  have hplace : g.place (.ofNat (i + 1)) = i % g.queueSize := place_ofNat g (by omega)
  by_cases he : i + g.queueSize = packets.length
  · rw [if_pos he]
    have hnext : ring.nextPlace g m = g.place (.ofNat (i + 1)) := by
      rw [h.nextPlace_eq, ← he, Nat.add_mod_right, hplace]
    have hne : UInt64.ofNat (packets.length + 1) ≠ .ofNat (i + 1) := by
      have := g.queueSize_pos
      rw [Ne, ← UInt64.toNat_inj, UInt64.toNat_ofNat', UInt64.toNat_ofNat', Nat.mod_eq_of_lt (a := i + 1) (by omega)]
      omega
    have hc := contents_crash_push h.setUp hw hp hs
    rw [hnext, h.nextIndex_eq] at hc
    rcases hc with hc | hc
    · rw [hset.found_eq, hc]
      rfl
    · rw [hset.found_of_contents hc, if_neg hne]
  · rw [if_neg he]
    have hne : i % g.queueSize ≠ ring.nextPlace g m := h.nextPlace_eq ▸ mod_ne_mod_of_lt hi (by omega)
    have hc := contents_of_touches h.setUp ht (Nat.mod_lt i g.queueSize_pos) hne
    rw [h.contents_eq i hi (Nat.zero_le _) hq rfl, ← hplace] at hc
    rw [hset.found_of_contents hc, if_pos rfl]

/-! ## What is left -/

/-- The packets that are published when a push stops after so many stores. -/
def known (packets : List Packet) (packet : Packet) (stores : Nat) : List Packet :=
  if pushStores packet ≤ stores then epoch (packets ++ [packet]) else packets

/-- The packets that can be read when a push stops after so many stores. -/
def survives (g : Geometry) (count : Nat) (packet : Packet) (stores : Nat) (x : IndexedPacket) : Bool :=
  ¬(Underway packet stores ∧ Displaced g count x)

/-- **However early a push stops, the ring holds the packets that are published, but for the one whose slot was being
rewritten.** -/
theorem holds_crash_push (h : ring.Healthy g packets m) (hp : packet.data.length ≤ g.slotSize)
    (stores : Nat) :
    ring.Holds g (survives g packets.length packet stores) 0 (known packets packet stores)
      ((ring.push packet).crash stores m) := by
  by_cases hs : Underway packet stores
  · have hlt : ¬pushStores packet ≤ stores := Nat.not_le.2 hs.2
    have hl := h.length_lt
    rw [known, if_neg hlt]
    refine ⟨(h.setUp.of_touches (touches_crash_push h.setUp hp stores)).queueSize_eq, hl,
      (writeIndex_crash_push_of_lt h.setUp hp hs.2).trans h.writeIndex_eq, fun i hi _ hq => ?_⟩
    have hn : (UInt64.ofNat (i + 1)).toNat = i + 1 := by
      rw [UInt64.toNat_ofNat', Nat.mod_eq_of_lt (by omega)]
    rw [found_crash_push h hp hs hi hq, Option.filter_some]
    simp only [survives, hs, Displaced, hn, true_and, decide_eq_true_eq, Nat.add_right_comm i 1,
      Nat.add_right_cancel_iff]
    split <;> simp_all
  · have hkept : survives g packets.length packet stores = fun _ => true := by
      funext x
      simp [survives, hs]
    rw [hkept, known]
    rcases Nat.eq_zero_or_pos stores with rfl | h0
    · have hlt : ¬pushStores packet ≤ 0 := Nat.not_le.2 (Nat.succ_pos _)
      rw [if_neg hlt, Access.crash_zero]
      exact h.holds
    · have hle : pushStores packet ≤ stores := Nat.not_lt.1 fun hlt => hs ⟨h0, hlt⟩
      rw [if_pos hle, crash_push_of_le h.setUp hp hle]
      exact (h.push hp).holds

/-- **No packet is delivered before its push has ended.** A ring takes any packets and then a producer dies in the
middle of a push; a walk from any cursor then delivers, in the order of their indices, the packets that are published
and still have a slot, but for the one whose slot was being rewritten. It ends at the last published packet, and counts
all that it did not deliver as skipped. -/
theorem drain_crash_push (ring : PacketRing) (g : Geometry) (m : Memory) (published : List Packet) (last : Packet)
    (hp : last.data.length ≤ g.slotSize) (stores : Nat) (cursor : UInt64) :
    let before := epoch (published.filter (·.data.length ≤ g.slotSize))
    let healthy := ((ring.pushAll published).run ((ring.init g.queueSize g.slotSize).run m).2).2
    let left := (ring.push last).crash stores healthy
    let packets := known before last stores
    let walk := ring.drain left ((ring.poll cursor).run left).1
    (left.word64 ring.base).toNat = packets.length ∧
      walk.1 = ((numbered packets).drop (max cursor.toNat (packets.length - g.queueSize))).filter
        (fun x => ¬(Underway last stores ∧ Displaced g before.length x)) ∧
      walk.1.Pairwise (fun x y => x.index < y.index) ∧
      (cursor.toNat ≤ packets.length → walk.2.cursor = left.word64 ring.base ∧
        walk.2.skipped.toNat = packets.length - cursor.toNat - walk.1.length) ∧
      (packets.length ≤ cursor.toNat → walk.2.cursor = cursor ∧ walk.2.skipped = 0) := by
  intro before healthy left packets walk
  have hhealthy : ring.Healthy g before healthy := (healthy_init ring g m).pushAll published
  have hholds : ring.Holds g (survives g before.length last stores) 0 packets left :=
    holds_crash_push hhealthy hp stores
  have hl := hholds.length_lt
  have hgot : walk.1 = ((numbered packets).drop (max cursor.toNat (packets.length - g.queueSize))).filter
      (survives g before.length last stores) := by
    rcases Nat.le_total cursor.toNat packets.length with hc | hc
    · exact congrArg Prod.fst (drain_of_holds hholds (Nat.zero_le _) hc)
    · have hd : (numbered packets).drop (max cursor.toNat (packets.length - g.queueSize)) = [] := by
        apply List.drop_of_length_le
        rw [length_numbered]
        omega
      rw [hd]
      exact congrArg Prod.fst (drain_of_length_le hholds hc)
  have hsub : walk.1.Sublist (numbered packets) := by
    rw [hgot]
    exact List.filter_sublist.trans (List.drop_sublist _ _)
  refine ⟨hholds.toNat_writeIndex, hgot, (pairwise_numbered hl).sublist hsub, fun hc => ?_, fun hc => ?_⟩
  · have hw := congrArg Prod.snd (drain_of_holds hholds (Nat.zero_le _) hc)
    rw [← hgot] at hw
    refine ⟨(congrArg Poll.cursor hw).trans hholds.writeIndex_eq.symm, ?_⟩
    have hk : walk.2.skipped = .ofNat (packets.length - cursor.toNat - walk.1.length) := congrArg Poll.skipped hw
    rw [hk, UInt64.toNat_ofNat', Nat.mod_eq_of_lt (by omega)]
  · have hw := congrArg Prod.snd (drain_of_length_le hholds hc)
    exact ⟨congrArg Poll.cursor hw, congrArg Poll.skipped hw⟩

/-- In a ring of two slots, a push that stops in the middle of its payload takes the older packet away. -/
theorem drain_crash_push_full :
    let g : Geometry := { queueSize := 2, slotSize := 4 }
    let last : Packet := { data := [5, 6, 7] }
    let healthy := ((PacketRing.pushAll ⟨0⟩ [{ data := [1] }, { data := [2] }]).run
      ((PacketRing.init ⟨0⟩ g.queueSize g.slotSize).run .zeroed).2).2
    let left := (PacketRing.push ⟨0⟩ last).crash 18 healthy
    last.data.length ≤ g.slotSize ∧
      (PacketRing.drain ⟨0⟩ left ((PacketRing.poll ⟨0⟩ 0).run left).1).1 =
        [{ index := 2, packet := { data := [2] } }] :=
  ⟨by decide, (drain_crash_push ⟨0⟩ { queueSize := 2, slotSize := 4 } .zeroed [{ data := [1] }, { data := [2] }]
    { data := [5, 6, 7] } (by decide) 18 0).2.1.trans (by decide)⟩

end PacketRing

end MediaChannels
