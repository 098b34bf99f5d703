import MediaChannels.Proofs.PacketRing.Walks

/-!
# The packets published in a ring

What memory says about the packets of a stream, and what a walk makes of it.

* `Publishes`: the invariant of a ring in use: which slots are torn, and that in every other slot stands the packet that
  was published there last.
* `Publishes.push`, `Publishes.pushAll`: publishing keeps it, and mends no torn slot.
* `Holds`: what a walk needs to know of memory: under which of the last indices it finds the packet, and under which
  nothing.
* `drain_of_holds`: the packets that a walk then delivers, and those that it counts as skipped.

Indices are words, so they start again after 2^64 packets; `epoch` gives the packets since then.
-/

namespace MediaChannels

namespace PacketRing

/-! ## Numbered packets -/

/-- The packets of a stream with their indices; the first has index one. -/
def numbered (packets : List Packet) : List IndexedPacket :=
  packets.mapIdx fun i packet => { index := .ofNat (i + 1), packet }

@[simp] theorem length_numbered (packets : List Packet) : (numbered packets).length = packets.length :=
  List.length_mapIdx

theorem getElem_numbered {packets : List Packet} {i : Nat} (hi : i < packets.length)
    (hi' : i < (numbered packets).length) :
    (numbered packets)[i] = { index := .ofNat (i + 1), packet := packets[i] } :=
  List.getElem_mapIdx

/-- The indices of a stream increase. -/
theorem pairwise_numbered {packets : List Packet} (h : packets.length < 2 ^ 64) :
    (numbered packets).Pairwise fun x y => x.index < y.index := by
  rw [List.pairwise_iff_getElem]
  intro i j hi hj hij
  rw [length_numbered] at hi hj
  rw [getElem_numbered hi, getElem_numbered hj, UInt64.lt_iff_toNat_lt, UInt64.toNat_ofNat', UInt64.toNat_ofNat',
    Nat.mod_eq_of_lt (by omega), Nat.mod_eq_of_lt (by omega)]
  omega

/-- The packets since the index last started again at zero. -/
def epoch (packets : List Packet) : List Packet := packets.drop (packets.length / 2 ^ 64 * 2 ^ 64)

@[simp] theorem length_epoch (packets : List Packet) : (epoch packets).length = packets.length % 2 ^ 64 := by
  rw [epoch, List.length_drop]
  omega

theorem epoch_of_lt {packets : List Packet} (h : packets.length < 2 ^ 64) : epoch packets = packets := by
  rw [epoch, Nat.div_eq_of_lt h, Nat.zero_mul, List.drop_zero]

/-- What came before an epoch does not matter for those to come. -/
theorem epoch_epoch_append (packets rest : List Packet) : epoch (epoch packets ++ rest) = epoch (packets ++ rest) := by
  have hd : epoch packets ++ rest = (packets ++ rest).drop (packets.length / 2 ^ 64 * 2 ^ 64) :=
    (List.drop_append_of_le_length (Nat.div_mul_le_self _ _)).symm
  have hn : packets.length / 2 ^ 64 * 2 ^ 64 +
      (packets.length + rest.length - packets.length / 2 ^ 64 * 2 ^ 64) / 2 ^ 64 * 2 ^ 64 =
        (packets.length + rest.length) / 2 ^ 64 * 2 ^ 64 := by
    omega
  rw [hd, epoch, epoch, List.drop_drop, List.length_drop, List.length_append, hn]

variable {ring : PacketRing} {g : Geometry} {m : Memory} {packets : List Packet}

/-! ## What a walk finds -/

theorem toNat_floor (published queueSize : UInt64) :
    (floor published queueSize).toNat = published.toNat - queueSize.toNat := by
  unfold floor
  split
  · next h => exact UInt64.toNat_sub_of_le _ _ h
  · next h =>
    rw [UInt64.le_iff_toNat_le] at h
    rw [UInt64.toNat_zero]
    omega

theorem place_ofNat (g : Geometry) {i : Nat} (hi : i < 2 ^ 64) : g.place (.ofNat (i + 1)) = i % g.queueSize := by
  rw [Geometry.place, UInt64.ofNat_add]
  simp only [UInt64.ofNat_one, UInt64.add_sub_cancel, UInt64.toNat_ofNat', Nat.mod_eq_of_lt hi]

theorem SetUp.found_eq (h : ring.SetUp g m) (index : UInt64) :
    ring.found m index = (((ring.slotAt g (g.place index)).contents m).filter (·.index = index)).map fun frame =>
      { index, packet := { data := frame.data, marks := .ofFlags frame.flags } } := by
  rw [found, h.run_slot]

/-- A slot that holds the frame of a packet gives the packet back, if it is looked at for its index. -/
theorem SetUp.found_of_contents (h : ring.SetUp g m) {index index' : UInt64} {packet : Packet}
    (hc : (ring.slotAt g (g.place index)).contents m = some (packet.frame index')) :
    ring.found m index = if index' = index then some { index, packet } else none := by
  rw [h.found_eq, hc]
  by_cases hi : index' = index <;> simp [Packet.frame, Option.filter, hi]

/-- Nothing is found in a torn slot. -/
theorem SetUp.found_of_torn (h : ring.SetUp g m) {index : UInt64} (ht : (ring.slotAt g (g.place index)).Torn m) :
    ring.found m index = none := by
  rw [h.found_eq, Seqlock.contents, if_pos ht]
  rfl

/-- So many packets are published, and from number `start` on, of the last ones, as many as there are slots, a walk
finds those that are kept. -/
structure Holds (ring : PacketRing) (g : Geometry) (kept : IndexedPacket → Bool) (start : Nat) (packets : List Packet)
    (m : Memory) : Prop where
  queueSize_eq : m.word64 ring.sizesAt = .ofNat g.queueSize
  length_lt : packets.length < 2 ^ 64
  writeIndex_eq : m.word64 ring.base = .ofNat packets.length
  found_eq : ∀ i, (hi : i < packets.length) → start ≤ i → packets.length ≤ i + g.queueSize →
    ring.found m (.ofNat (i + 1)) = (some { index := .ofNat (i + 1), packet := packets[i] }).filter kept

section Holds

variable {kept : IndexedPacket → Bool} {start : Nat}

theorem Holds.toNat_writeIndex (h : ring.Holds g kept start packets m) :
    (m.word64 ring.base).toNat = packets.length := by
  rw [h.writeIndex_eq, UInt64.toNat_ofNat', Nat.mod_eq_of_lt h.length_lt]

theorem Holds.toNat_floorIn (h : ring.Holds g kept start packets m) :
    (ring.floorIn m).toNat = packets.length - g.queueSize := by
  rw [floorIn, toNat_floor, h.toNat_writeIndex, h.queueSize_eq, g.toNat_queueSize]

/-- What is found above a place in the stream. -/
theorem Holds.unread_eq (h : ring.Holds g kept start packets m) {c : Nat} (hs : start ≤ c)
    (hc : packets.length ≤ c + g.queueSize) :
    ring.unread m c packets.length = ((numbered packets).drop c).filter kept := by
  induction hr : packets.length - c generalizing c with
  | zero =>
    have hle : packets.length ≤ c := by omega
    rw [ring.unread_of_le m hle, List.drop_of_length_le (by rwa [length_numbered])]
    rfl
  | succ r ih =>
    have hlt : c < packets.length := by omega
    rw [ring.unread_of_lt m hlt, h.found_eq c hlt hs hc, ih (by omega) (by omega) (by omega),
      List.drop_eq_getElem_cons (i := c) (by rwa [length_numbered]), getElem_numbered hlt, List.filter_cons]
    cases hk : kept { index := .ofNat (c + 1), packet := packets[c] }
    · rw [Option.filter_some_neg hk]
      rfl
    · rw [Option.filter_some_pos hk]
      rfl

/-- **A walk delivers the packets that are kept, and counts all others up to its end as skipped.** -/
theorem drain_of_holds (h : ring.Holds g kept start packets m) {cursor : UInt64}
    (hs : start ≤ max cursor.toNat (packets.length - g.queueSize)) (hc : cursor.toNat ≤ packets.length) :
    ring.drain m ((ring.poll cursor).run m).1 =
      (((numbered packets).drop (max cursor.toNat (packets.length - g.queueSize))).filter kept,
        { cursor := .ofNat packets.length
          stop := .ofNat packets.length
          skipped := .ofNat (packets.length - cursor.toNat -
            (((numbered packets).drop (max cursor.toNat (packets.length - g.queueSize))).filter kept).length) }) := by
  have hp : ((ring.poll cursor).run m).1 = { cursor, stop := m.word64 ring.base } := by simp [poll]
  have hle : cursor ≤ m.word64 ring.base := by rwa [UInt64.le_iff_toNat_le, h.toNat_writeIndex]
  have hf : ring.floorIn m ≤ m.word64 ring.base := by
    rw [UInt64.le_iff_toNat_le, h.toNat_floorIn, h.toNat_writeIndex]
    omega
  rw [hp, drain_of_le hle hf]
  dsimp only
  rw [h.toNat_writeIndex, h.toNat_floorIn, h.unread_eq hs (by omega), h.writeIndex_eq, UInt64.zero_add]

/-- A walk that begins at or behind the last packet delivers nothing. -/
theorem drain_of_length_le (h : ring.Holds g kept start packets m) {cursor : UInt64}
    (hc : packets.length ≤ cursor.toNat) :
    ring.drain m ((ring.poll cursor).run m).1 = ([], { cursor, stop := .ofNat packets.length }) := by
  have hp : ((ring.poll cursor).run m).1 = { cursor, stop := m.word64 ring.base } := by simp [poll]
  rw [hp, drain_of_stop_le (by rwa [UInt64.le_iff_toNat_le, h.toNat_writeIndex]), h.writeIndex_eq]

end Holds

/-! ## A ring in use -/

/-- So many packets are published in a ring, and from number `start` on each of the last ones stands in its slot, unless
that slot is torn. -/
structure Publishes (ring : PacketRing) (g : Geometry) (torn : Nat → Bool) (start : Nat) (packets : List Packet)
    (m : Memory) : Prop where
  setUp : ring.SetUp g m
  length_lt : packets.length < 2 ^ 64
  writeIndex_eq : m.word64 ring.base = .ofNat packets.length
  torn_iff : ∀ i < g.queueSize, (ring.slotAt g i).Torn m ↔ torn i
  contents_eq : ∀ i, (hi : i < packets.length) → start ≤ i → packets.length ≤ i + g.queueSize →
    torn (i % g.queueSize) = false →
    (ring.slotAt g (i % g.queueSize)).contents m = some (packets[i].frame (.ofNat (i + 1)))

/-- No slot is torn, and each of the last packets stands in its slot. -/
abbrev Healthy (ring : PacketRing) (g : Geometry) (packets : List Packet) (m : Memory) : Prop :=
  ring.Publishes g (fun _ => false) 0 packets m

/-- A ring that was just set up has published nothing. -/
theorem healthy_init (ring : PacketRing) (g : Geometry) (m : Memory) :
    ring.Healthy g [] ((ring.init g.queueSize g.slotSize).run m).2 := by
  obtain ⟨hs, hw, ht⟩ := setUp_init ring g m
  exact ⟨hs, by decide, hw, fun i hi => iff_of_false (ht i hi) Bool.false_ne_true,
    fun i hi => absurd hi (Nat.not_lt_zero i)⟩

/-- Nothing need be known about what a ring held before. -/
theorem SetUp.publishes (h : ring.SetUp g m) {before : List Packet} (hl : before.length < 2 ^ 64)
    (hw : m.word64 ring.base = .ofNat before.length) :
    ring.Publishes g (fun i => (ring.slotAt g i).Torn m) before.length before m :=
  ⟨h, hl, hw, fun _ _ => decide_eq_true_iff.symm, fun _ hi hs => absurd hs (Nat.not_le.2 hi)⟩

namespace Publishes

variable {torn : Nat → Bool} {start : Nat} {packet : Packet}

theorem nextIndex_eq (h : ring.Publishes g torn start packets m) :
    ring.nextIndex m = .ofNat (packets.length + 1) := by
  rw [nextIndex, h.writeIndex_eq, UInt64.ofNat_add]
  rfl

theorem nextPlace_eq (h : ring.Publishes g torn start packets m) :
    ring.nextPlace g m = packets.length % g.queueSize := by
  rw [nextPlace, h.nextIndex_eq, place_ofNat g h.length_lt]

/-- A ring keeps those of its last packets whose slots are not torn. -/
theorem holds (h : ring.Publishes g torn start packets m) :
    ring.Holds g (fun x => !torn (g.place x.index)) start packets m := by
  refine ⟨h.setUp.queueSize_eq, h.length_lt, h.writeIndex_eq, fun i hi hs hq => ?_⟩
  have hl := h.length_lt
  have hplace : g.place (.ofNat (i + 1)) = i % g.queueSize := place_ofNat g (by omega)
  rw [Option.filter_some]
  dsimp only
  rw [hplace]
  cases ht : torn (i % g.queueSize) with
  | true =>
    have hslot : (ring.slotAt g (g.place (.ofNat (i + 1)))).Torn m := by
      rw [hplace]
      exact (h.torn_iff _ (Nat.mod_lt i g.queueSize_pos)).2 ht
    rw [h.setUp.found_of_torn hslot]
    rfl
  | false =>
    have hc := h.contents_eq i hi hs hq ht
    rw [← hplace] at hc
    rw [h.setUp.found_of_contents hc, if_pos rfl]
    rfl

/-- **Publishing a packet that fits keeps the invariant.** -/
theorem push (h : ring.Publishes g torn start packets m) (hp : packet.data.length ≤ g.slotSize) :
    ring.Publishes g torn start (epoch (packets ++ [packet])) ((ring.push packet).run m).2 := by
  have ht := touches_push h.setUp hp
  have hl := h.length_lt
  have hm : (epoch (packets ++ [packet])).length = (packets.length + 1) % 2 ^ 64 := by
    rw [length_epoch, List.length_append, List.length_singleton]
  have hw : ((ring.push packet).run m).2.word64 ring.base = .ofNat (epoch (packets ++ [packet])).length := by
    rw [writeIndex_push h.setUp hp, h.nextIndex_eq, hm]
    exact UInt64.ofNat_mod_size.symm
  refine ⟨h.setUp.of_touches ht, by omega, hw, fun i hi => (torn_push_iff h.setUp hp i).trans (h.torn_iff i hi), ?_⟩
  intro i hi hs hq hwhole
  -- After 2^64 packets the index starts again, and the ring has published nothing in the new epoch.
  rcases Nat.lt_or_ge (packets.length + 1) (2 ^ 64) with hlt | hge
  · have he : epoch (packets ++ [packet]) = packets ++ [packet] := epoch_of_lt (by simpa using hlt)
    simp only [he, List.length_append, List.length_singleton] at hi hq ⊢
    rcases Nat.lt_or_ge i packets.length with hi' | hi'
    · have hne : i % g.queueSize ≠ ring.nextPlace g m := h.nextPlace_eq ▸ mod_ne_mod_of_lt hi' (by omega)
      rw [contents_of_touches h.setUp ht (Nat.mod_lt _ g.queueSize_pos) hne, h.contents_eq i hi' hs (by omega) hwhole,
        List.getElem_append_left hi']
    · obtain rfl : i = packets.length := by omega
      have hslot : ¬(ring.slotAt g (packets.length % g.queueSize)).Torn m := by
        rw [h.torn_iff _ (Nat.mod_lt _ g.queueSize_pos), hwhole]
        exact Bool.false_ne_true
      have hc := contents_push h.setUp hp
      rw [h.nextPlace_eq, if_neg hslot, h.nextIndex_eq] at hc
      rw [hc, List.getElem_concat_length rfl]
  · omega

/-- A packet that is refused leaves all as it was. -/
theorem push_of_too_large (h : ring.Publishes g torn start packets m) (hp : g.slotSize < packet.data.length) :
    ring.Publishes g torn start packets ((ring.push packet).run m).2 := by
  rw [PacketRing.push_of_too_large h.setUp hp]
  exact h

/-- **Publishing any packets keeps the invariant;** those that fit are added. -/
theorem pushAll (h : ring.Publishes g torn start packets m) (more : List Packet) :
    ring.Publishes g torn start (epoch (packets ++ more.filter (·.data.length ≤ g.slotSize)))
      ((ring.pushAll more).run m).2 := by
  induction more generalizing packets m with
  | nil =>
    rw [List.filter_nil, List.append_nil, epoch_of_lt h.length_lt]
    exact h
  | cons packet rest ih =>
    rw [pushAll_cons, Access.run_bind, List.filter_cons]
    by_cases hp : packet.data.length ≤ g.slotSize
    · rw [if_pos (by simpa using hp), List.append_cons, ← epoch_epoch_append]
      exact ih (h.push hp)
    · rw [if_neg (by simpa using hp)]
      exact ih (h.push_of_too_large (Nat.not_le.1 hp))

end Publishes

/-- A healthy ring keeps all of its last packets. -/
theorem Healthy.holds (h : ring.Healthy g packets m) : ring.Holds g (fun _ => true) 0 packets m := Publishes.holds h

end PacketRing

end MediaChannels
