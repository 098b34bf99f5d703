import MediaChannels.Proofs.PacketRing.Published
import MediaChannels.Proofs.Transcript

/-!
# A ring is a stream of packets

Seen through its calls, a ring in shared memory cannot be told from the list of the packets published in it: pushing
appends, and a walk reads at its place in the list, or at the first place that is not overwritten yet.

* `Stream`, `Walk.next`: the list, and what one step of a walk does on it.
* `Publishes.run_next`: one step of a walk in memory is that step on the list.
* `follows_step`: whatever is called, the ring goes on following its stream.
* `ring_refines_stream`: so a ring answers every sequence of calls as the list does.
-/

namespace MediaChannels

/-! ## The stream -/

/-- A walk over a stream, in plain numbers. -/
structure Walk where
  cursor : Nat
  stop : Nat
  skipped : Nat := 0

/-- All packets ever published, and the walks over them. -/
structure Stream where
  packets : List Packet := []
  walks : List Walk := []

/-- One step of a walk: places that more than `queueSize` packets have passed since are skipped, and the packet at the
first place that is left is delivered, with its index. -/
def Walk.next (queueSize : Nat) (packets : List Packet) (walk : Walk) : Option (Nat × Packet) × Walk :=
  let first := max walk.cursor (packets.length - queueSize)
  let skipped := walk.skipped + (first - walk.cursor)
  if walk.stop ≤ walk.cursor then (none, walk)
  else if walk.stop ≤ first then (none, { walk with cursor := first, skipped })
  else (packets[first]?.map (first + 1, ·), { walk with cursor := first + 1, skipped })

/-- A walk ends within the first `count` packets, and has skipped no more than it has passed. -/
def Walk.Within (count : Nat) (walk : Walk) : Prop := walk.stop ≤ count ∧ walk.skipped ≤ walk.cursor

theorem Walk.Within.next {walk : Walk} {count : Nat} (h : walk.Within count) (queueSize : Nat) (packets : List Packet) :
    (walk.next queueSize packets).2.Within count := by
  obtain ⟨hs, hk⟩ := h
  simp only [Walk.next]
  split
  · exact ⟨hs, hk⟩
  split
  · refine ⟨hs, ?_⟩
    dsimp only
    omega
  · refine ⟨hs, ?_⟩
    dsimp only
    omega

/-! ## Calls -/

/-- What producers and consumers can ask of a ring: to publish a packet, to begin a walk after a cursor, and to go one
step further on one of the walks. -/
inductive RingCall where
  | push (packet : Packet)
  | poll (cursor : UInt64)
  | next (walk : Nat)

/-- What they are told. -/
inductive RingReply where
  | pushed (index : Except Error Nat)
  | begun
  | fetched (packet : Option (Nat × Packet))

namespace RingCall

/-- The call publishes a packet. -/
def isPush : RingCall → Bool
  | push _ => true
  | _ => false

/-- A call to the stream: packets of more than `slotSize` bytes are refused. -/
def onStream (g : PacketRing.Geometry) : RingCall → Stream → RingReply × Stream
  | push packet, s =>
    if g.slotSize < packet.data.length then (.pushed (.error (.payloadTooLarge g.slotSize packet.data.length)), s)
    else (.pushed (.ok (s.packets.length + 1)), { s with packets := s.packets ++ [packet] })
  | poll cursor, s =>
    (.begun, { s with walks := s.walks ++ [{ cursor := cursor.toNat, stop := s.packets.length }] })
  | next walk, s =>
    match s.walks[walk]? with
    | none => (.fetched none, s)
    | some w =>
      let (packet, w) := w.next g.queueSize s.packets
      (.fetched packet, { s with walks := s.walks.set walk w })

/-- A call to the ring in memory, with the walks that were begun. -/
def onRing (ring : PacketRing) : RingCall → Memory × List Poll → RingReply × (Memory × List Poll)
  | push packet, (m, walks) =>
    let (index, m) := (ring.push packet).run m
    (.pushed (index.map UInt64.toNat), (m, walks))
  | poll cursor, (m, walks) =>
    let (p, m) := (ring.poll cursor).run m
    (.begun, (m, walks ++ [p]))
  | next walk, (m, walks) =>
    match walks[walk]? with
    | none => (.fetched none, (m, walks))
    | some p =>
      let ((packet, p), m) := (ring.next p).run m
      (.fetched (packet.map fun x => (x.index.toNat, x.packet)), (m, walks.set walk p))

end RingCall

/-! ## One step of a walk -/

/-- A walk in memory, in plain numbers. -/
def Poll.walk (p : Poll) : Walk := { cursor := p.cursor.toNat, stop := p.stop.toNat, skipped := p.skipped.toNat }

theorem Poll.walk_skipTo {p : Poll} (floor : UInt64) (hk : p.skipped.toNat ≤ p.cursor.toNat) :
    (p.skipTo floor).walk =
      { cursor := max p.cursor.toNat floor.toNat
        stop := p.stop.toNat
        skipped := p.skipped.toNat + (max p.cursor.toNat floor.toNat - p.cursor.toNat) } := by
  have hf := floor.toNat_lt
  rw [Poll.skipTo]
  split
  · next h =>
    have hd := UInt64.toNat_sub_of_le _ _ (UInt64.le_of_lt h)
    rw [UInt64.lt_iff_toNat_lt] at h
    rw [Nat.max_eq_right (Nat.le_of_lt h), Poll.walk, UInt64.toNat_add, hd, Nat.mod_eq_of_lt (by omega)]
  · next h =>
    rw [UInt64.not_lt, UInt64.le_iff_toNat_le] at h
    rw [Nat.max_eq_left h, Nat.sub_self]
    rfl

namespace PacketRing

variable {ring : PacketRing} {g : Geometry} {m : Memory} {packets : List Packet}

/-- **A step of a walk in memory is the step of the walk on the list of packets.** -/
theorem Publishes.run_next (h : ring.Healthy g packets m) {p : Poll} (hp : p.walk.Within packets.length) :
    ((((ring.next p).run m).1.1.map fun x => (x.index.toNat, x.packet)), ((ring.next p).run m).1.2.walk) =
      p.walk.next g.queueSize packets := by
  have hl := h.length_lt
  have hs : p.stop.toNat ≤ packets.length := hp.1
  have hw := Poll.walk_skipTo (ring.floorIn m) hp.2
  rw [h.holds.toNat_floorIn] at hw
  generalize hf : max p.cursor.toNat (packets.length - g.queueSize) = first at hw
  have hc : (p.skipTo (ring.floorIn m)).cursor.toNat = first := congrArg Walk.cursor hw
  have hnext : p.walk.next g.queueSize packets =
      if p.stop.toNat ≤ p.cursor.toNat then (none, p.walk)
      else if p.stop.toNat ≤ first then (none, (p.skipTo (ring.floorIn m)).walk)
      else (packets[first]?.map (first + 1, ·), { (p.skipTo (ring.floorIn m)).walk with cursor := first + 1 }) := by
    rw [hw, ← hf]
    rfl
  rw [hnext, PacketRing.run_next]
  simp only [UInt64.le_iff_toNat_le, hc]
  by_cases h1 : p.stop.toNat ≤ p.cursor.toNat
  · rw [if_pos h1, if_pos h1]
    rfl
  rw [if_neg h1, if_neg h1]
  by_cases h2 : p.stop.toNat ≤ first
  · rw [if_pos h2, if_pos h2]
    rfl
  rw [if_neg h2, if_neg h2]
  -- The place lies within the stream and among its last packets, so its slot still holds the packet.
  have hlt : first < packets.length := by omega
  have hi : (p.skipTo (ring.floorIn m)).cursor + 1 = .ofNat (first + 1) := by
    rw [UInt64.ofNat_add, ← hc, UInt64.ofNat_toNat]
    rfl
  have hn : (UInt64.ofNat (first + 1)).toNat = first + 1 := by
    rw [UInt64.toNat_ofNat', Nat.mod_eq_of_lt (by omega)]
  have hfound := h.holds.found_eq first hlt (Nat.zero_le _) (by omega)
  rw [Option.filter_some_pos rfl] at hfound
  rw [hi, hfound, List.getElem?_eq_getElem hlt]
  dsimp only [Option.map_some]
  rw [hn, Poll.walk, Poll.deliver, hi, hn]
  rfl

/-! ## Every sequence of calls -/

/-- A ring in memory follows a stream, with so few packets still to come that indices do not run out. -/
structure Follows (ring : PacketRing) (g : Geometry) (calls : List RingCall) (real : Memory × List Poll)
    (ideal : Stream) : Prop where
  publishes : ring.Healthy g ideal.packets real.1
  room : ideal.packets.length + calls.countP RingCall.isPush < 2 ^ 64
  walks_eq : real.2.map Poll.walk = ideal.walks
  within : ∀ walk ∈ ideal.walks, walk.Within ideal.packets.length

section Step

variable {calls : List RingCall} {polls : List Poll} {ideal : Stream}

theorem follows_push (packet : Packet) (h : ring.Follows g (.push packet :: calls) (m, polls) ideal) :
    ((RingCall.push packet).onRing ring (m, polls)).1 = ((RingCall.push packet).onStream g ideal).1 ∧
      ring.Follows g calls ((RingCall.push packet).onRing ring (m, polls)).2
        ((RingCall.push packet).onStream g ideal).2 := by
  obtain ⟨hp, hr, hw, hi⟩ := h
  rw [List.countP_cons_of_pos rfl] at hr
  simp only [RingCall.onRing, RingCall.onStream]
  rcases Nat.lt_or_ge g.slotSize packet.data.length with hl | hl
  · rw [if_pos hl, push_of_too_large hp.setUp hl]
    exact ⟨rfl, hp, Nat.lt_of_succ_lt hr, hw, hi⟩
  · have hlength : (ideal.packets ++ [packet]).length = ideal.packets.length + 1 := List.length_append
    have hpush := hp.push hl
    rw [epoch_of_lt (by omega)] at hpush
    rw [if_neg (Nat.not_lt.2 hl)]
    refine ⟨?_, hpush, ?_, hw, ?_⟩
    · rw [run_push hp.setUp hl, hp.nextIndex_eq]
      dsimp only [Except.map]
      rw [UInt64.toNat_ofNat', Nat.mod_eq_of_lt (by omega)]
    · rw [hlength]
      omega
    · intro walk hwalk
      rw [hlength]
      exact ⟨Nat.le_succ_of_le (hi walk hwalk).1, (hi walk hwalk).2⟩

theorem follows_poll (cursor : UInt64) (h : ring.Follows g (.poll cursor :: calls) (m, polls) ideal) :
    ((RingCall.poll cursor).onRing ring (m, polls)).1 = ((RingCall.poll cursor).onStream g ideal).1 ∧
      ring.Follows g calls ((RingCall.poll cursor).onRing ring (m, polls)).2
        ((RingCall.poll cursor).onStream g ideal).2 := by
  obtain ⟨hp, hr, hw, hi⟩ := h
  rw [List.countP_cons_of_neg Bool.false_ne_true] at hr
  have hpoll : (ring.poll cursor).run m = ({ cursor, stop := m.word64 ring.base }, m) := by simp [poll]
  have hwalk : (Poll.mk cursor (m.word64 ring.base) 0).walk =
      { cursor := cursor.toNat, stop := ideal.packets.length } := by
    rw [Poll.walk, hp.holds.toNat_writeIndex]
    rfl
  rw [RingCall.onRing, hpoll]
  refine ⟨rfl, hp, hr, ?_, ?_⟩
  · rw [List.map_append, hw, List.map_singleton, hwalk]
    rfl
  · intro walk hmem
    rcases List.mem_append.1 hmem with hmem | hmem
    · exact hi walk hmem
    · rw [List.mem_singleton.1 hmem]
      exact ⟨Nat.le_refl _, Nat.zero_le _⟩

theorem follows_next (walk : Nat) (h : ring.Follows g (.next walk :: calls) (m, polls) ideal) :
    ((RingCall.next walk).onRing ring (m, polls)).1 = ((RingCall.next walk).onStream g ideal).1 ∧
      ring.Follows g calls ((RingCall.next walk).onRing ring (m, polls)).2
        ((RingCall.next walk).onStream g ideal).2 := by
  obtain ⟨hp, hr, hw, hi⟩ := h
  rw [List.countP_cons_of_neg Bool.false_ne_true] at hr
  have hget : ideal.walks[walk]? = polls[walk]?.map Poll.walk := by rw [← hw, List.getElem?_map]
  rw [RingCall.onRing, RingCall.onStream, hget]
  cases hpoll : polls[walk]? with
  | none => exact ⟨rfl, hp, hr, hw, hi⟩
  | some p =>
    have hin : p.walk.Within ideal.packets.length := by
      refine hi _ (List.mem_of_getElem? (i := walk) ?_)
      rw [hget, hpoll]
      rfl
    have hnext := hp.run_next hin
    have hlast := hin.next g.queueSize ideal.packets
    rw [← hnext] at hlast
    dsimp only [Option.map_some]
    rw [← hnext, run_next_snd]
    refine ⟨rfl, hp, hr, ?_, ?_⟩
    · rw [List.map_set, hw]
    · intro walk' hmem
      rcases List.mem_or_eq_of_mem_set hmem with hmem | rfl
      · exact hi walk' hmem
      · exact hlast

/-- **Whatever is called, ring and stream answer alike, and the ring goes on following its stream.** -/
theorem follows_step (call : RingCall) (calls : List RingCall) (real : Memory × List Poll) (ideal : Stream)
    (h : ring.Follows g (call :: calls) real ideal) :
    (call.onRing ring real).1 = (call.onStream g ideal).1 ∧
      ring.Follows g calls (call.onRing ring real).2 (call.onStream g ideal).2 := by
  cases call with
  | push packet => exact follows_push packet h
  | poll cursor => exact follows_poll cursor h
  | next walk => exact follows_next walk h

end Step

/-- **A ring that was just set up answers every sequence of calls as the stream does**, whatever the memory held before.
Then its walks stand where those over the stream stand, and end within the packets that are published; and a walk from
the start to the end delivers the last packets, as many as there are slots, and skips those before. -/
theorem ring_refines_stream (ring : PacketRing) (g : Geometry) (m : Memory) (calls : List RingCall)
    (h : calls.countP RingCall.isPush < 2 ^ 64) :
    let real := transcript (RingCall.onRing ring) calls (((ring.init g.queueSize g.slotSize).run m).2, [])
    let ideal := transcript (RingCall.onStream g) calls {}
    let count := ideal.2.packets.length
    real.1 = ideal.1 ∧
      real.2.2.map Poll.walk = ideal.2.walks ∧
      (real.2.1.word64 ring.base).toNat = count ∧
      (∀ walk ∈ ideal.2.walks, walk.stop ≤ count) ∧
      ring.drain real.2.1 ((ring.poll 0).run real.2.1).1 =
        ((numbered ideal.2.packets).drop (count - g.queueSize),
          { cursor := .ofNat count, stop := .ofNat count, skipped := .ofNat (count - g.queueSize) }) := by
  intro real ideal count
  have hstart : ring.Follows g calls (((ring.init g.queueSize g.slotSize).run m).2, []) {} :=
    ⟨healthy_init ring g m, by rwa [List.length_nil, Nat.zero_add], rfl,
      fun _ hwalk => absurd hwalk List.not_mem_nil⟩
  obtain ⟨hreplies, hlast⟩ := transcript_eq_of_simulation (R := ring.Follows g) follows_step calls hstart
  have hholds := hlast.publishes.holds
  refine ⟨hreplies, hlast.walks_eq, hholds.toNat_writeIndex, fun walk hwalk => (hlast.within walk hwalk).1, ?_⟩
  have hall : ((numbered ideal.2.packets).drop (max (0 : UInt64).toNat (count - g.queueSize))).filter (fun _ => true) =
      (numbered ideal.2.packets).drop (count - g.queueSize) := by
    rw [UInt64.toNat_zero, Nat.zero_max]
    exact List.filter_eq_self.2 fun _ _ => rfl
  have hskipped : count - (0 : UInt64).toNat - ((numbered ideal.2.packets).drop (count - g.queueSize)).length =
      count - g.queueSize := by
    rw [UInt64.toNat_zero, List.length_drop, length_numbered]
    omega
  rw [drain_of_holds hholds (Nat.zero_le _) (Nat.zero_le _), hall, hskipped]

/-- A walk whose only packet is overwritten before it is fetched delivers nothing. -/
theorem ring_refines_stream_overtaken :
    let calls : List RingCall := [.push { data := [1, 2] }, .poll 0, .push { data := [3] }, .next 0, .poll 1, .next 1]
    calls.countP RingCall.isPush < 2 ^ 64 ∧
      (transcript (RingCall.onRing ⟨0⟩) calls (((PacketRing.init ⟨0⟩ 1 4).run .zeroed).2, [])).1 =
        [.pushed (.ok 1), .begun, .pushed (.ok 2), .fetched none, .begun, .fetched (some (2, { data := [3] }))] :=
  ⟨by decide, (ring_refines_stream ⟨0⟩ { queueSize := 1, slotSize := 4 } .zeroed _ (by decide)).1⟩

end PacketRing

end MediaChannels
