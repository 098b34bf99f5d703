import MediaChannels.Proofs.PacketRing.Stream

/-!
# Consumers of a ring

A consumer starts at the first packet and moves its cursor only by walking. It may leave a walk at any place and begin
another; what it has received, what it has missed, and what is still to come are together all that is published.

* `PacketConsumer.Accounts`: the invariant: the cursor lies within the stream, and up to it every packet was received
  once and in order, or missed.
* `Accounts.mono`, `Accounts.poll`, `Accounts.next`: publishing and walking keep it.
* `Accounts.countP_not_received`: the packets that the cursor has passed and that were not received are as many as were
  missed.
* `Accounts.drain`: a whole walk brings the consumer to the end of the stream, and every packet is accounted for.
-/

namespace MediaChannels

/-- A consumer, on its last walk. -/
structure PacketConsumer where
  walk : Poll := { cursor := 0, stop := 0 }
  received : List IndexedPacket := []
  /-- The packets that were skipped on the walks before. -/
  missed : Nat := 0

/-- Among the members of a list without repetitions, those of a part of it are the part. -/
theorem filter_mem_of_sublist {α : Type} [DecidableEq α] {whole part : List α} (hnodup : whole.Nodup)
    (h : part.Sublist whole) : whole.filter (fun a => a ∈ part) = part := by
  induction h with
  | slnil => rfl
  | cons a h ih =>
    obtain ⟨hnew, hrest⟩ := List.nodup_cons.1 hnodup
    rw [List.filter_cons_of_neg (by simpa using fun hmem => hnew (h.subset hmem)), ih hrest]
  | cons_cons a h ih =>
    obtain ⟨hnew, hrest⟩ := List.nodup_cons.1 hnodup
    rw [List.filter_cons_of_pos (by simp)]
    refine congrArg (a :: ·) ((List.filter_congr fun b hb => ?_).trans (ih hrest))
    have hne : b ≠ a := fun he => hnew (he ▸ hb)
    simp [hne]

namespace PacketConsumer

/-- The consumer begins another walk. -/
def begin (c : PacketConsumer) (walk : Poll) : PacketConsumer :=
  { c with walk, missed := c.missed + c.walk.skipped.toNat }

/-- The consumer has gone one step further. -/
def receive (c : PacketConsumer) (packet : Option IndexedPacket) (walk : Poll) : PacketConsumer :=
  { c with walk, received := c.received ++ packet.toList }

/-- Up to the cursor, every packet of the stream was received, in order and once, or missed. -/
structure Accounts (c : PacketConsumer) (packets : List Packet) : Prop where
  within : c.walk.walk.Within packets.length
  cursor_le : c.walk.cursor.toNat ≤ packets.length
  received : c.received.Sublist ((PacketRing.numbered packets).take c.walk.cursor.toNat)
  counted : c.received.length + c.missed + c.walk.skipped.toNat = c.walk.cursor.toNat

namespace Accounts

variable {c : PacketConsumer} {ring : PacketRing} {g : PacketRing.Geometry} {m : Memory} {packets : List Packet}

/-- A consumer that has not moved yet. -/
theorem start (packets : List Packet) : Accounts {} packets :=
  ⟨⟨Nat.zero_le _, Nat.le_refl _⟩, Nat.zero_le _, List.nil_sublist _, rfl⟩

/-- More packets change nothing for those up to the cursor. -/
theorem mono (h : c.Accounts packets) {packets' : List Packet} (hmore : packets <+: packets') :
    c.Accounts packets' := by
  obtain ⟨more, rfl⟩ := hmore
  have hlength : packets.length ≤ (packets ++ more).length := by simp
  refine ⟨⟨Nat.le_trans h.within.1 hlength, h.within.2⟩, Nat.le_trans h.cursor_le hlength, ?_, h.counted⟩
  rw [PacketRing.numbered, List.mapIdx_append, List.take_append_of_le_length (by simpa using h.cursor_le)]
  exact h.received

/-- A walk that begins where the last one was left, and ends within the stream. -/
theorem beginAt (h : c.Accounts packets) {stop : UInt64} (hstop : stop.toNat ≤ packets.length) :
    (c.begin { cursor := c.walk.cursor, stop }).Accounts packets := by
  have hcounted := h.counted
  refine ⟨⟨hstop, Nat.zero_le _⟩, h.cursor_le, h.received, ?_⟩
  simp only [begin, UInt64.toNat_zero]
  omega

/-- A walk begins where the last one was left. -/
theorem poll (h : c.Accounts packets) (hring : ring.Healthy g packets m) :
    (c.begin ((ring.poll c.walk.cursor).run m).1).Accounts packets := by
  have hpoll : ((ring.poll c.walk.cursor).run m).1 = { cursor := c.walk.cursor, stop := m.word64 ring.base } := by
    simp [PacketRing.poll]
  rw [hpoll]
  exact h.beginAt (Nat.le_of_eq hring.holds.toNat_writeIndex)

/-- **A step of a walk receives a packet or counts it as skipped**, and never leads beyond the stream. -/
theorem next (h : c.Accounts packets) (hring : ring.Healthy g packets m) :
    (c.receive ((ring.next c.walk).run m).1.1 ((ring.next c.walk).run m).1.2).Accounts packets := by
  have hnext := hring.run_next h.within
  have hwithin := h.within.next g.queueSize packets
  have hstop := h.within.1
  have hcursor := h.cursor_le
  have hcounted := h.counted
  rw [← hnext] at hwithin
  generalize ((ring.next c.walk).run m).1 = result at hnext hwithin ⊢
  obtain ⟨packet, q⟩ := result
  simp only [Walk.next] at hnext
  generalize hfirst : max c.walk.walk.cursor (packets.length - g.queueSize) = first at hnext
  have hwalk : c.walk.walk.cursor = c.walk.cursor.toNat ∧ c.walk.walk.stop = c.walk.stop.toNat ∧
      c.walk.walk.skipped = c.walk.skipped.toNat := ⟨rfl, rfl, rfl⟩
  obtain ⟨hc, hs, hk⟩ := hwalk
  rw [hc] at hfirst
  rw [hs] at hstop
  split at hnext
  · -- The walk is at its end already.
    obtain ⟨hnone, hq⟩ := Prod.mk.inj hnext
    obtain rfl := Option.map_eq_none_iff.1 hnone
    have hqc : q.cursor.toNat = c.walk.cursor.toNat := congrArg Walk.cursor hq
    have hqk : q.skipped.toNat = c.walk.skipped.toNat := congrArg Walk.skipped hq
    refine ⟨hwithin, ?_, ?_, ?_⟩
    · exact hqc ▸ hcursor
    · simpa [receive, hqc] using h.received
    · simpa [receive, hqc, hqk] using hcounted
  split at hnext
  · -- All that was left of it has been overwritten.
    obtain ⟨hnone, hq⟩ := Prod.mk.inj hnext
    obtain rfl := Option.map_eq_none_iff.1 hnone
    have hqc : q.cursor.toNat = first := congrArg Walk.cursor hq
    have hqk : q.skipped.toNat = c.walk.skipped.toNat + (first - c.walk.cursor.toNat) := congrArg Walk.skipped hq
    refine ⟨hwithin, ?_, ?_, ?_⟩
    · show q.cursor.toNat ≤ packets.length
      omega
    · simp only [receive, hqc, Option.toList_none, List.append_nil]
      exact h.received.trans (List.take_prefix_take_left (by omega)).sublist
    · simp only [receive, hqc, hqk, Option.toList_none, List.append_nil]
      omega
  next hlt =>
    -- A packet is received.
    obtain ⟨hsome, hq⟩ := Prod.mk.inj hnext
    have hin : first < packets.length := by omega
    rw [List.getElem?_eq_getElem hin, Option.map_some] at hsome
    obtain ⟨x, rfl, hx⟩ := Option.map_eq_some_iff.1 hsome
    obtain ⟨hindex, hpacket⟩ := Prod.mk.inj hx
    have hqc : q.cursor.toNat = first + 1 := congrArg Walk.cursor hq
    have hqk : q.skipped.toNat = c.walk.skipped.toNat + (first - c.walk.cursor.toNat) := congrArg Walk.skipped hq
    have hin' : first < (PacketRing.numbered packets).length := by simpa using hin
    have hx : x = (PacketRing.numbered packets)[first] := by
      rw [PacketRing.getElem_numbered hin, ← hindex, UInt64.ofNat_toNat, ← hpacket]
    refine ⟨hwithin, ?_, ?_, ?_⟩
    · show q.cursor.toNat ≤ packets.length
      omega
    · simp only [receive, hqc, Option.toList_some]
      rw [List.take_succ_eq_append_getElem hin', ← hx]
      exact (h.received.trans (List.take_prefix_take_left (by omega)).sublist).append (.refl _)
    · simp only [receive, hqc, hqk, Option.toList_some, List.length_append, List.length_singleton]
      omega

/-- **The packets up to the cursor that were not received are as many as were counted as skipped.** -/
theorem countP_not_received (h : c.Accounts packets) (hlt : packets.length < 2 ^ 64) :
    ((PacketRing.numbered packets).take c.walk.cursor.toNat).countP (fun packet => packet ∉ c.received) =
      c.missed + c.walk.skipped.toNat := by
  have hlength : ((PacketRing.numbered packets).take c.walk.cursor.toNat).length = c.walk.cursor.toNat := by
    have := h.cursor_le
    rw [List.length_take, PacketRing.length_numbered]
    omega
  have hnodup : ((PacketRing.numbered packets).take c.walk.cursor.toNat).Nodup :=
    ((PacketRing.pairwise_numbered hlt).sublist (List.take_sublist _ _)).imp fun hless heq =>
      absurd (heq ▸ hless) (UInt64.lt_irrefl _)
  have hreceived : ((PacketRing.numbered packets).take c.walk.cursor.toNat).countP (fun packet => packet ∈ c.received) =
      c.received.length := by
    rw [List.countP_eq_length_filter, filter_mem_of_sublist hnodup h.received]
  have hsplit := List.length_eq_countP_add_countP (fun packet => decide (packet ∈ c.received))
    (l := (PacketRing.numbered packets).take c.walk.cursor.toNat)
  have hcounted := h.counted
  simp only [hlength, hreceived, decide_eq_true_eq] at hsplit
  omega

/-- **A whole walk accounts for all packets of the stream**: the consumer comes to its end, every packet was received at
most once and in order, and those that were not received are as many as were counted. -/
theorem drain (h : c.Accounts packets) (hring : ring.Healthy g packets m) :
    ∃ more rest, ring.drain m ((ring.poll c.walk.cursor).run m).1 = (more, rest) ∧
      rest.cursor.toNat = packets.length ∧ (c.received ++ more).Sublist (PacketRing.numbered packets) ∧
        (c.received ++ more).length + c.missed + c.walk.skipped.toNat + rest.skipped.toNat = packets.length := by
  have hlt := hring.length_lt
  have hcursor := h.cursor_le
  have hcounted := h.counted
  have hdrain := PacketRing.drain_of_holds hring.holds (Nat.zero_le _) hcursor
  rw [List.filter_eq_self.2 fun _ _ => rfl] at hdrain
  have hmore := List.drop_sublist_drop_left (PacketRing.numbered packets)
    (Nat.le_max_left c.walk.cursor.toNat (packets.length - g.queueSize))
  refine ⟨_, _, hdrain, ?_, ?_, ?_⟩
  · rw [UInt64.toNat_ofNat', Nat.mod_eq_of_lt hlt]
  · have hparts := h.received.append hmore
    rwa [List.take_append_drop] at hparts
  · rw [UInt64.toNat_ofNat', Nat.mod_eq_of_lt (by omega), List.length_append, List.length_drop,
      PacketRing.length_numbered]
    omega

end Accounts

end PacketConsumer

end MediaChannels
