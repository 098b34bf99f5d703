import MediaChannels.Proofs.Channel.Display
import MediaChannels.Proofs.PacketRing.Crash

/-!
# After a dead writer

A writer that dies between its two stores of a sequence number leaves the number odd, and the lock torn. The next writer
adds two to the number that it finds, so the lock stays torn, and nothing that is written behind it is found again.

* `Seqlock.tryRead_write`: what is found after a complete write, for every sequence number.
* `PacketRing.drain_pushAll`: which packets are found once a new producer has used every slot again.
* `PacketRing.drain_pushAll_crash`: after a push that died, the first of them is lost, or none is.
* `complete_writes_keep_tears`: all of this, with the display selector, in one statement.
-/

namespace MediaChannels

namespace Seqlock

/-- **A complete write keeps the parity of the sequence number, and the frame is found if that was even.** -/
theorem tryRead_write (lock : Seqlock) (frame : Frame) {m : Memory} (h : lock.capacityIn m < 2 ^ 32) :
    (lock.Torn ((lock.write frame).run m).2 ↔ lock.Torn m) ∧
      (lock.tryRead.run ((lock.write frame).run m).2).1 =
        if lock.Torn m then none else some { frame with data := frame.data.take (lock.capacityIn m) } := by
  refine ⟨lock.torn_run_write_iff frame, ?_⟩
  rw [run_tryRead, contents_run_write lock frame h]
  rfl

end Seqlock

namespace PacketRing

variable {ring : PacketRing} {g : Geometry} {m : Memory} {before more : List Packet}

/-- The packets that a ring takes. -/
def Fit (g : Geometry) (packets : List Packet) : Prop := ∀ packet ∈ packets, packet.data.length ≤ g.slotSize

theorem Fit.filter_eq (h : Fit g more) : more.filter (·.data.length ≤ g.slotSize) = more :=
  List.filter_eq_self.2 fun packet hp => decide_eq_true (h packet hp)

/-- What a walk from the start is told, when it delivers these of `count` packets. -/
def toldOf (count : Nat) (packets : List IndexedPacket) : List IndexedPacket × Poll :=
  (packets, { cursor := .ofNat count, stop := .ofNat count, skipped := .ofNat (count - packets.length) })

/-- **Once a new producer has used every slot again, its packets are found but for those in slots that were torn**,
whatever the slots held before. -/
theorem drain_pushAll (h : ring.SetUp g m) (hw : m.word64 ring.base = .ofNat before.length) (hfit : Fit g more)
    (hcount : more.length = g.queueSize) (hroom : before.length + g.queueSize < 2 ^ 64) :
    let after := ((ring.pushAll more).run m).2
    ring.drain after ((ring.poll 0).run after).1 =
      toldOf (before.length + g.queueSize) (((numbered (before ++ more)).drop before.length).filter fun x =>
        ¬(ring.slotAt g (g.place x.index)).Torn m) := by
  intro after
  have hlength : (before ++ more).length = before.length + g.queueSize := by rw [List.length_append, hcount]
  have hpush := (h.publishes (by omega) hw).pushAll more
  rw [hfit.filter_eq, epoch_of_lt (by rwa [hlength])] at hpush
  have hfirst : (0 : UInt64).toNat = 0 := rfl
  have hdrain : ring.drain after ((ring.poll 0).run after).1 = _ :=
    drain_of_holds hpush.holds (by rw [hlength]; omega) (Nat.zero_le _)
  rw [hlength, hfirst, Nat.add_sub_cancel, Nat.zero_max, Nat.sub_zero] at hdrain
  rw [hdrain, toldOf]
  simp only [decide_not]

/-- A place in the last packets of a stream, and the slot that belongs to it. -/
theorem place_of_mem_drop {packets : List Packet} (hl : packets.length < 2 ^ 64) {c : Nat} {x : IndexedPacket}
    (hx : x ∈ (numbered packets).drop c) :
    ∃ i, c ≤ i ∧ i < packets.length ∧ g.place x.index = i % g.queueSize := by
  obtain ⟨j, hj, rfl⟩ := List.mem_iff_getElem.1 hx
  rw [List.length_drop, length_numbered] at hj
  refine ⟨c + j, Nat.le_add_right _ _, by omega, ?_⟩
  rw [List.getElem_drop, getElem_numbered (by omega)]
  exact place_ofNat g (by omega)

/-- **A push that died after its first store and before the even sequence number costs the next producer its first
packet**; one that died earlier or later costs nothing. -/
theorem drain_pushAll_crash {last : Packet} (h : ring.Healthy g before m) (hp : last.data.length ≤ g.slotSize)
    (hfit : Fit g more) (hcount : more.length = g.queueSize) (hroom : before.length + g.queueSize + 1 < 2 ^ 64)
    (stores : Nat) :
    let packets := known before last stores
    let after := ((ring.pushAll more).run ((ring.push last).crash stores m)).2
    ring.drain after ((ring.poll 0).run after).1 =
      toldOf (packets.length + g.queueSize) ((numbered (packets ++ more)).drop (packets.length +
        if 0 < stores ∧ stores < Seqlock.frameHeaderSize + last.data.length + 2 then 1 else 0)) := by
  have hpos := g.queueSize_pos
  have hset := h.setUp.of_touches (touches_crash_push h.setUp hp stores)
  have hw := (holds_crash_push h hp stores).writeIndex_eq
  have hknown : (known before last stores).length ≤ before.length + 1 := by
    rw [known]
    split
    · rw [epoch_of_lt (by rw [List.length_append, List.length_singleton]; omega), List.length_append]
      exact Nat.le_refl _
    · exact Nat.le_succ _
  have htorn (i : Nat) (hi : i < g.queueSize) : (ring.slotAt g i).Torn ((ring.push last).crash stores m) ↔
      i = before.length % g.queueSize ∧ 0 < stores ∧ stores < Seqlock.frameHeaderSize + last.data.length + 2 := by
    have hwhole : ¬(ring.slotAt g i).Torn m := fun ht => Bool.false_ne_true ((h.torn_iff i hi).1 ht)
    rw [torn_crash_push_iff h.setUp hp, h.nextPlace_eq]
    split <;> simp_all
  generalize hpackets : known before last stores = packets at hw hknown
  have hlength : (packets ++ more).length = packets.length + g.queueSize := by rw [List.length_append, hcount]
  intro packets' after
  have hdrain : ring.drain after ((ring.poll 0).run after).1 = _ := drain_pushAll hset hw hfit hcount (by omega)
  rw [hdrain]
  refine congrArg (toldOf _) ?_
  show _ = (numbered (packets ++ more)).drop (packets.length + _)
  by_cases hs : 0 < stores ∧ stores < Seqlock.frameHeaderSize + last.data.length + 2
  · -- The torn slot is the one to which the next producer turns first.
    have hbefore : packets = before := by
      rw [← hpackets, known, pushStores]
      exact if_neg (by omega)
    have hfirst : packets.length < (numbered (packets ++ more)).length := by
      rw [length_numbered, hlength]
      omega
    rw [if_pos hs, List.drop_eq_getElem_cons hfirst, List.filter_cons_of_neg, List.filter_eq_self]
    · intro x hx
      obtain ⟨i, hc, hi, hplace⟩ := place_of_mem_drop (g := g) (by omega) hx
      have hne : before.length % g.queueSize ≠ i % g.queueSize := by
        rw [← hbefore]
        exact mod_ne_mod_of_lt hc (by omega)
      rw [decide_eq_true_eq, htorn _ (g.place_lt _), hplace]
      exact fun ht => hne ht.1.symm
    · rw [decide_eq_true_eq, htorn _ (g.place_lt _), getElem_numbered (by omega), ← hbefore]
      exact fun hn => hn ⟨place_ofNat g (by omega), hs⟩
  · rw [if_neg hs, Nat.add_zero, List.filter_eq_self]
    intro x _
    rw [decide_eq_true_eq, htorn _ (g.place_lt _)]
    exact fun ht => hs ht.2

end PacketRing

/-- **What a complete write achieves after a writer that died**, on any memory and after any number of stores that the
dead writer had made. Behind a lock, the frame is found if and only if the sequence number was even before. In a ring,
once a new producer has used every slot again, a walk finds its packets but for those in slots that were torn; if a
single producer died in a healthy ring, that is its first packet if the dead push had stored the odd sequence number and
not yet the even one, and else none. The display selector is found if its lock was not torn, which it is after a writer
that died in the same way. -/
theorem complete_writes_keep_tears (m : Memory) (stores : Nat) :
    (∀ (lock : Seqlock) (frame : Frame), lock.capacityIn m < 2 ^ 32 →
      (lock.Torn ((lock.write frame).run m).2 ↔ lock.Torn m) ∧
        (lock.tryRead.run ((lock.write frame).run m).2).1 =
          if lock.Torn m then none else some { frame with data := frame.data.take (lock.capacityIn m) }) ∧
    (∀ (ring : PacketRing) (g : PacketRing.Geometry) (before more : List Packet),
      ring.SetUp g m → m.word64 ring.base = .ofNat before.length → before.length + g.queueSize < 2 ^ 64 →
      PacketRing.Fit g more → more.length = g.queueSize →
      let after := ((ring.pushAll more).run m).2
      ring.drain after ((ring.poll 0).run after).1 = PacketRing.toldOf (before.length + g.queueSize)
        (((PacketRing.numbered (before ++ more)).drop before.length).filter fun x =>
          ¬(ring.slotAt g (g.place x.index)).Torn m)) ∧
    (∀ (ring : PacketRing) (g : PacketRing.Geometry) (before more : List Packet) (last : Packet),
      PacketRing.Fit g before → last.data.length ≤ g.slotSize → PacketRing.Fit g more → more.length = g.queueSize →
      before.length + g.queueSize + 1 < 2 ^ 64 →
      let healthy := ((ring.pushAll before).run ((ring.init g.queueSize g.slotSize).run m).2).2
      let packets := PacketRing.known before last stores
      let after := ((ring.pushAll more).run ((ring.push last).crash stores healthy)).2
      ring.drain after ((ring.poll 0).run after).1 = PacketRing.toldOf (packets.length + g.queueSize)
        ((PacketRing.numbered (packets ++ more)).drop (packets.length +
          if 0 < stores ∧ stores < Seqlock.frameHeaderSize + last.data.length + 2 then 1 else 0))) ∧
    ∀ (channel : Channel) (old text : String), channel.DisplayReady m → ¬channel.displayLock.Torn m →
      (Utf8.encode old).length ≤ Layout.displayCapacity → (Utf8.encode text).length ≤ Layout.displayCapacity →
      let left := (channel.setDisplay old).crash stores m
      (channel.display.run ((channel.setDisplay text).run left).2).1 =
        if (0 < stores ∧ stores < Seqlock.frameHeaderSize + (Utf8.encode old).length + 2) ∨ text = "" then none
        else some text := by
  refine ⟨fun lock frame h => lock.tryRead_write frame h, ?_, ?_, ?_⟩
  · intro ring g before more h hw hroom hfit hcount
    exact PacketRing.drain_pushAll h hw hfit hcount hroom
  · intro ring g before more last hbefore hp hfit hcount hroom
    have hhealthy := (PacketRing.healthy_init ring g m).pushAll before
    rw [hbefore.filter_eq, List.nil_append, PacketRing.epoch_of_lt (by omega)] at hhealthy
    exact PacketRing.drain_pushAll_crash hhealthy hp hfit hcount hroom stores
  · intro channel old text hc hw hold htext left
    rw [Channel.display_setDisplay (hc.crash_setDisplay hold stores) htext]
    simp only [Channel.torn_crash_setDisplay_iff hc hold, hw, not_false_eq_true, if_false_right, and_true]

/-- A lock that is torn stays torn, a ring of two slots loses the first packet after a push that died in its header,
and a selector is lost in the same way. -/
theorem complete_writes_keep_tears_seen :
    let lock : Seqlock := ⟨0⟩
    let torn := (Memory.zeroed.write 0 (Memory.bytes64 1)).write 64 (Memory.bytes64 32)
    let ring : PacketRing := ⟨0⟩
    let left := (ring.push { data := [9] }).crash 3 ((ring.pushAll []).run ((ring.init 2 4).run .zeroed).2).2
    let after := ((ring.pushAll [{ data := [1] }, { data := [2] }]).run left).2
    let channel : Channel := .ofLayout .video0 (.of {}) 32
    let fresh := ((channel.init {}).run .zeroed).2
    let cut := (channel.setDisplay ":0").crash 3 fresh
    lock.capacityIn torn < 2 ^ 32 ∧
      (lock.tryRead.run ((lock.write { index := 7, flags := 1, data := [97, 98] }).run torn).2).1 = none ∧
      (ring.drain after ((ring.poll 0).run after).1).1 = [{ index := 2, packet := { data := [2] } }] ∧
      (channel.display.run ((channel.setDisplay ":1").run cut).2).1 = none := by
  intro lock torn ring left after channel fresh cut
  have hcapacity : lock.capacityIn torn < 2 ^ 32 := by
    rw [Seqlock.capacityIn, show torn.word64 lock.dataSizeAt = 32 from Memory.word64_write_bytes64 _ _ _]
    decide
  have hword : torn.word64 0 = 1 :=
    (Memory.word64_write_of_disjoint _ (.inl (by decide))).trans (Memory.word64_write_bytes64 _ _ _)
  have htorn : lock.Torn torn := by
    rw [Seqlock.Torn, show torn.word64 lock.base = 1 from hword]
    decide
  refine ⟨hcapacity, ?_, ?_, ?_⟩
  · obtain ⟨hlock, -⟩ := complete_writes_keep_tears torn 0
    rw [(hlock lock { index := 7, flags := 1, data := [97, 98] } hcapacity).2, if_pos htorn]
  · obtain ⟨-, -, hpush, -⟩ := complete_writes_keep_tears .zeroed 3
    have hring := hpush ring { queueSize := 2, slotSize := 4 } [] [{ data := [1] }, { data := [2] }] { data := [9] }
      (by simp [PacketRing.Fit]) (by decide) (by simp [PacketRing.Fit]) rfl (by decide)
    exact (congrArg Prod.fst hring).trans (by decide)
  · have hfresh : channel.DisplayReady fresh ∧ ¬channel.displayLock.Torn fresh :=
      Channel.displayReady_init rfl .zeroed
    obtain ⟨-, -, -, hset⟩ := complete_writes_keep_tears fresh 3
    have hdisplay := hset channel ":0" ":1" hfresh.1 hfresh.2 (by decide) (by decide)
    exact hdisplay.trans (if_pos (.inl (by decide)))

end MediaChannels
