import MediaChannels.Proofs.PacketRing.Footprint
import MediaChannels.Proofs.Transcript

/-!
# Walks over rings that may hold anything

A consumer has no part in what its producer writes. Here the sizes of a ring are those with which it was set up, and all
else may be anything, before every step of a walk: the number of packets published, and what stands in the slots.

* `Steps`, `next_steps`: what one step of a walk does, on any memory.
* `nextExact`: a step that fails where a sum or a difference of words overflows; `run_nextExact`: none does.
* `Wanders`, `wanders_transcript`: what any number of steps do.
* `Sized.walk`: packets come in order and out of slots that hold them, all else is counted, and a walk ends for good.
-/

namespace MediaChannels

/-! ## Sums and differences of words -/

/-- The sum of two words, if it is a word. -/
def sum? (a b : UInt64) : Option UInt64 := if a.toNat + b.toNat < 2 ^ 64 then some (a + b) else none

/-- The difference of two words, if it is a word. -/
def difference? (a b : UInt64) : Option UInt64 := if b.toNat ≤ a.toNat then some (a - b) else none

theorem sum?_eq {a b : UInt64} (h : a.toNat + b.toNat < 2 ^ 64) : sum? a b = some (a + b) := if_pos h

theorem difference?_eq {a b : UInt64} (h : b.toNat ≤ a.toNat) : difference? a b = some (a - b) := if_pos h

theorem toNat_of_sum? {a b c : UInt64} (h : sum? a b = some c) : c.toNat = a.toNat + b.toNat := by
  unfold sum? at h
  split at h
  · next hlt =>
    cases h
    rw [UInt64.toNat_add, Nat.mod_eq_of_lt hlt]
  · cases h

namespace Poll

/-- The walk after everything up to `floor` is given up, if nothing overflows. -/
def skipTo? (p : Poll) (floor : UInt64) : Option Poll :=
  if p.cursor < floor then do
    let overwritten ← difference? floor p.cursor
    let skipped ← sum? p.skipped overwritten
    return { p with cursor := floor, skipped }
  else some p

/-- No more is skipped than the cursor has come past. -/
def Fair (p : Poll) : Prop := p.skipped.toNat ≤ p.cursor.toNat

theorem stop_of_skipTo? {p q : Poll} {floor : UInt64} (h : p.skipTo? floor = some q) :
    q.stop = p.stop ∧ p.cursor.toNat ≤ q.cursor.toNat := by
  unfold skipTo? at h
  split at h
  · next hlt =>
    obtain ⟨overwritten, -, h⟩ := Option.bind_eq_some_iff.1 h
    obtain ⟨skipped, -, h⟩ := Option.bind_eq_some_iff.1 h
    cases h
    exact ⟨rfl, Nat.le_of_lt (UInt64.lt_iff_toNat_lt.1 hlt)⟩
  · cases h
    exact ⟨rfl, Nat.le_refl _⟩

theorem remaining_exact_lt {p q : Poll} {floor index : UInt64} (h : p.skipTo? floor = some q)
    (hlt : ¬p.stop ≤ q.cursor) (hi : sum? q.cursor 1 = some index) :
    q.stop.toNat - index.toNat < p.stop.toNat - p.cursor.toNat := by
  obtain ⟨hstop, hle⟩ := stop_of_skipTo? h
  have hindex := toNat_of_sum? hi
  rw [UInt64.le_iff_toNat_le] at hlt
  rw [hstop, hindex, UInt64.toNat_one]
  omega

/-- What jumping to the floor does to the numbers of a walk, none of which overflows. -/
theorem Fair.skipTo {p : Poll} (h : p.Fair) (floor : UInt64) :
    p.skipTo? floor = some (p.skipTo floor) ∧ (p.skipTo floor).Fair ∧
      p.cursor.toNat + (p.skipTo floor).skipped.toNat = (p.skipTo floor).cursor.toNat + p.skipped.toNat := by
  unfold Fair at h ⊢
  have hf := floor.toNat_lt
  by_cases hlt : p.cursor < floor
  · have hlt' := UInt64.lt_iff_toNat_lt.1 hlt
    have hgap : (floor - p.cursor).toNat = floor.toNat - p.cursor.toNat :=
      UInt64.toNat_sub_of_le _ _ (UInt64.le_of_lt hlt)
    have hroom : p.skipped.toNat + (floor - p.cursor).toNat < 2 ^ 64 := by omega
    have hsum : (p.skipped + (floor - p.cursor)).toNat = p.skipped.toNat + (floor - p.cursor).toNat := by
      rw [UInt64.toNat_add, Nat.mod_eq_of_lt hroom]
    have hexact : p.skipTo? floor = some { p with cursor := floor, skipped := p.skipped + (floor - p.cursor) } := by
      rw [skipTo?, if_pos hlt, difference?_eq (Nat.le_of_lt hlt'), Option.bind_eq_bind, Option.bind_some,
        sum?_eq hroom]
      rfl
    simp only [hexact, Poll.skipTo, if_pos hlt, hsum]
    exact ⟨trivial, by omega, by omega⟩
  · simp only [skipTo?, Poll.skipTo, if_neg hlt]
    exact ⟨trivial, h, trivial⟩

end Poll

namespace PacketRing

variable (ring : PacketRing)

/-! ## Steps that take no overflow -/

/-- The next packet of a walk, as in `next`; none is the answer as soon as a sum or a difference is no word. -/
def nextExact (p : Poll) : Access (Option (Option IndexedPacket × Poll)) :=
  if p.stop ≤ p.cursor then pure (some (none, p))
  else do
    let published ← ring.writeIndex
    let queueSize ← ring.queueSize
    match _hq : p.skipTo? (floor published queueSize) with
    | none => return none
    | some q =>
      if _hlt : p.stop ≤ q.cursor then return some (none, q)
      else
        match _hi : sum? q.cursor 1 with
        | none => return none
        | some index =>
          -- The slot is that of the difference.
          match difference? index 1 with
          | none => return none
          | some _ => do
            let lock ← ring.slot index
            let frame ← lock.tryRead
            match frame.filter (·.index = index) with
            | some frame =>
              let packet : Packet := { data := frame.data, marks := .ofFlags frame.flags }
              return some (some { index, packet }, { q with cursor := index })
            | none =>
              match sum? q.skipped 1 with
              | none => return none
              | some skipped => nextExact { q with cursor := index, skipped }
termination_by p.stop.toNat - p.cursor.toNat
decreasing_by exact Poll.remaining_exact_lt _hq _hlt _hi

variable {ring} {m : Memory} {p q : Poll}

/-- One turn of such a step, with the memory in place of the loads. -/
theorem run_nextExact_turn (hp : p.Fair) :
    (ring.nextExact p).run m =
      if p.stop ≤ p.cursor then (some (none, p), m)
      else if p.stop ≤ (p.skipTo (ring.floorIn m)).cursor then (some (none, p.skipTo (ring.floorIn m)), m)
      else match ring.found m ((p.skipTo (ring.floorIn m)).cursor + 1) with
        | some packet => (some (some packet, (p.skipTo (ring.floorIn m)).deliver), m)
        | none => (ring.nextExact (p.skipTo (ring.floorIn m)).skip).run m := by
  obtain ⟨hskip, hfair, -⟩ := hp.skipTo (ring.floorIn m)
  rw [nextExact]
  split
  · rfl
  rw [Access.run_bind, run_writeIndex, Access.run_bind, run_queueSize]
  dsimp only
  rw [← floorIn]
  split
  · next hnone => rw [hskip] at hnone; cases hnone
  next q hq =>
  rw [hskip] at hq
  cases hq
  split
  · rfl
  next hlt =>
  obtain ⟨hnext, hl⟩ := toNat_cursor_succ hlt
  have hs := p.stop.toNat_lt
  unfold Poll.Fair at hfair
  have hdifference := difference?_eq (a := (p.skipTo (ring.floorIn m)).cursor + 1) (b := 1)
    (by rw [hnext, UInt64.toNat_one]; omega)
  have hskipped := sum?_eq (a := (p.skipTo (ring.floorIn m)).skipped) (b := 1)
    (by rw [UInt64.toNat_one]; omega)
  split
  · next hnone => rw [sum?_eq (by rw [UInt64.toNat_one]; omega)] at hnone; cases hnone
  next index hi =>
  obtain rfl : (p.skipTo (ring.floorIn m)).cursor + 1 = index := by
    rw [sum?_eq (by rw [UInt64.toNat_one]; omega)] at hi
    exact Option.some.inj hi
  simp only [hdifference, hskipped, Access.run_bind, run_slot_snd, Seqlock.run_tryRead, found]
  cases (((ring.slot ((p.skipTo (ring.floorIn m)).cursor + 1)).run m).1.contents m).filter
    (·.index = (p.skipTo (ring.floorIn m)).cursor + 1) <;> rfl

/-- What passing over one packet does to the numbers of a walk. -/
theorem fair_skip {floor : UInt64} (hp : p.Fair) (hlt : ¬p.stop ≤ (p.skipTo floor).cursor) :
    (p.skipTo floor).skip.Fair ∧ (p.skipTo floor).skip.cursor.toNat = (p.skipTo floor).cursor.toNat + 1 ∧
      (p.skipTo floor).skip.skipped.toNat = (p.skipTo floor).skipped.toNat + 1 := by
  obtain ⟨-, hfair, -⟩ := hp.skipTo floor
  obtain ⟨hnext, hl⟩ := toNat_cursor_succ hlt
  have hs := p.stop.toNat_lt
  have hskipped : ((p.skipTo floor).skipped + 1).toNat = (p.skipTo floor).skipped.toNat + 1 := by
    unfold Poll.Fair at hfair
    rw [UInt64.toNat_add, UInt64.toNat_one]
    omega
  simp only [Poll.Fair, Poll.skip, hnext, hskipped] at hfair ⊢
  exact ⟨by omega, trivial, trivial⟩

/-- **No sum and no difference overflows in a step**, whatever stands in memory. -/
theorem run_nextExact (hp : p.Fair) : (ring.nextExact p).run m = (some ((ring.next p).run m).1, m) := by
  refine ring.run_next_induct m (P := fun p r => p.Fair → (ring.nextExact p).run m = (some r.1, m)) ?ended ?overtaken
    ?delivers ?passes p hp
  case ended =>
    intro p hle hp
    rw [run_nextExact_turn hp, if_pos hle]
  case overtaken =>
    intro p hn hle hp
    rw [run_nextExact_turn hp, if_neg hn, if_pos hle]
  case delivers =>
    intro p packet hlt hf hp
    rw [run_nextExact_turn hp, if_neg fun h => hlt (UInt64.le_trans h (p.le_cursor_skipTo _)), if_neg hlt, hf]
  case passes =>
    intro p r hlt hf ih hp
    rw [run_nextExact_turn hp, if_neg fun h => hlt (UInt64.le_trans h (p.le_cursor_skipTo _)), if_neg hlt, hf]
    exact ih (fair_skip hp hlt).1

/-! ## What steps do -/

/-- What one step does on a memory: it delivers what is found under the index that its cursor comes to, or it comes to
the end; and what it passes is delivered or counted. -/
structure Steps (ring : PacketRing) (m : Memory) (p : Poll) (reply : Option IndexedPacket) (q : Poll) : Prop where
  stop_eq : q.stop = p.stop
  fair : q.Fair
  cursor_le : p.cursor.toNat ≤ q.cursor.toNat
  counted : p.cursor.toNat + reply.toList.length + q.skipped.toNat = q.cursor.toNat + p.skipped.toNat
  delivered : ∀ packet, reply = some packet → p.cursor < packet.index ∧ packet.index = q.cursor ∧ q.cursor ≤ p.stop ∧
    ring.found m packet.index = some packet
  ended : reply = none → p.stop ≤ q.cursor

theorem index_of_found {index : UInt64} {packet : IndexedPacket} (h : ring.found m index = some packet) :
    packet.index = index := by
  obtain ⟨frame, -, rfl⟩ := Option.map_eq_some_iff.1 h
  rfl

theorem next_steps (hp : p.Fair) : ring.Steps m p ((ring.next p).run m).1.1 ((ring.next p).run m).1.2 := by
  refine ring.run_next_induct m (P := fun p r => p.Fair → ring.Steps m p r.1.1 r.1.2) ?ended ?overtaken ?delivers
    ?passes p hp
  case ended =>
    intro p hle hp
    exact ⟨rfl, hp, Nat.le_refl _, rfl, by rintro _ ⟨⟩, fun _ => hle⟩
  case overtaken =>
    intro p hn hle hp
    obtain ⟨-, hfair, hcount⟩ := hp.skipTo (ring.floorIn m)
    have hc := UInt64.le_iff_toNat_le.1 (p.le_cursor_skipTo (ring.floorIn m))
    exact ⟨Poll.stop_skipTo _ _, hfair, hc, hcount, by rintro _ ⟨⟩, fun _ => hle⟩
  case delivers =>
    intro p packet hlt hf hp
    obtain ⟨-, hfair, hcount⟩ := hp.skipTo (ring.floorIn m)
    obtain ⟨hnext, hl⟩ := toNat_cursor_succ hlt
    have hc := UInt64.le_iff_toNat_le.1 (p.le_cursor_skipTo (ring.floorIn m))
    have hindex := index_of_found hf
    unfold Poll.Fair at hfair
    refine ⟨Poll.stop_skipTo _ _, ?_, ?_, ?_, ?_, by rintro ⟨⟩⟩
    · simp only [Poll.Fair, Poll.deliver, hnext]
      omega
    · simp only [Poll.deliver, hnext]
      omega
    · simp only [Poll.deliver, hnext, Option.toList_some, List.length_singleton]
      omega
    · rintro _ ⟨⟩
      rw [hindex, UInt64.lt_iff_toNat_lt, UInt64.le_iff_toNat_le]
      simp only [Poll.deliver, hnext]
      exact ⟨by omega, trivial, by omega, hf⟩
  case passes =>
    intro p r hlt hf ih hp
    obtain ⟨-, -, hcount⟩ := hp.skipTo (ring.floorIn m)
    obtain ⟨hfair, hcursor, hskipped⟩ := fair_skip hp hlt
    have hc := UInt64.le_iff_toNat_le.1 (p.le_cursor_skipTo (ring.floorIn m))
    obtain ⟨hstop, hfair', hle', hcount', hdelivered, hended⟩ := ih hfair
    have hstop' : (p.skipTo (ring.floorIn m)).skip.stop = p.stop := Poll.stop_skipTo _ _
    rw [hstop'] at hstop hended
    refine ⟨hstop, hfair', by omega, by omega, fun packet hpacket => ?_, hended⟩
    obtain ⟨hgt, hindex, hle, hfound⟩ := hdelivered packet hpacket
    rw [hstop'] at hle
    refine ⟨?_, hindex, hle, hfound⟩
    rw [UInt64.lt_iff_toNat_lt] at hgt ⊢
    omega

/-! ## What any number of steps do -/

/-- A step on the memory as it is then. -/
def nextOn (ring : PacketRing) (m : Memory) (p : Poll) : Option IndexedPacket × Poll := ((ring.next p).run m).1

/-- The packets among the answers. -/
def packetsOf (replies : List (Option IndexedPacket)) : List IndexedPacket := replies.flatMap Option.toList

/-- What steps do, each on a memory of its own. -/
structure Wanders (ring : PacketRing) (memories : List Memory) (p : Poll) (replies : List (Option IndexedPacket))
    (q : Poll) : Prop where
  stop_eq : q.stop = p.stop
  fair : q.Fair
  cursor_le : p.cursor.toNat ≤ q.cursor.toNat
  counted : p.cursor.toNat + (packetsOf replies).length + q.skipped.toNat = q.cursor.toNat + p.skipped.toNat
  ordered : (packetsOf replies).Pairwise fun x y => x.index < y.index
  within : ∀ packet ∈ packetsOf replies, p.cursor < packet.index ∧ packet.index ≤ p.stop
  found : ∀ call ∈ memories.zip replies, ∀ packet, call.2 = some packet →
    ring.found call.1 packet.index = some packet
  ended : none ∈ replies → p.stop ≤ q.cursor
  ends : p.stop.toNat - p.cursor.toNat < memories.length → none ∈ replies

/-- **What one step does, and what the steps after it do, is what all of them do.** -/
theorem Steps.wanders {memories : List Memory} {reply : Option IndexedPacket} {replies : List (Option IndexedPacket)}
    {r : Poll} (h : ring.Steps m p reply q) (hrest : ring.Wanders memories q replies r) :
    ring.Wanders (m :: memories) p (reply :: replies) r := by
  obtain ⟨hstop, hfair, hle, hcount, hdelivered, hended⟩ := h
  obtain ⟨hstop', hfair', hle', hcount', hordered, hwithin, hfound, hended', hends⟩ := hrest
  rw [hstop] at hstop' hwithin hended' hends
  have hpackets : packetsOf (reply :: replies) = reply.toList ++ packetsOf replies := List.flatMap_cons
  refine ⟨hstop', hfair', by omega, ?_, ?_, fun packet hmem => ?_, fun call hcall packet hpacket => ?_,
    fun hnone => ?_, fun hlength => ?_⟩
  · rw [hpackets, List.length_append]
    omega
  · rw [hpackets]
    refine List.pairwise_append.2 ⟨?_, hordered, fun first hfirst later hlater => ?_⟩
    · cases reply <;> simp
    · obtain ⟨-, hindex, -, -⟩ := hdelivered first (Option.mem_toList.1 hfirst)
      exact hindex ▸ (hwithin later hlater).1
  · rw [hpackets] at hmem
    rcases List.mem_append.1 hmem with hfirst | hlater
    · obtain ⟨hgt, hindex, hin, -⟩ := hdelivered packet (Option.mem_toList.1 hfirst)
      exact ⟨hgt, hindex ▸ hin⟩
    · obtain ⟨hgt, hin⟩ := hwithin packet hlater
      refine ⟨?_, hin⟩
      rw [UInt64.lt_iff_toNat_lt] at hgt ⊢
      omega
  · rcases List.mem_cons.1 hcall with rfl | hlater
    · exact (hdelivered packet hpacket).2.2.2
    · exact hfound call hlater packet hpacket
  · rcases List.mem_cons.1 hnone with hfirst | hlater
    · have hend := UInt64.le_iff_toNat_le.1 (hended hfirst.symm)
      exact UInt64.le_iff_toNat_le.2 (by omega)
    · exact hended' hlater
  · cases reply with
    | none => exact List.mem_cons_self
    | some packet =>
      obtain ⟨hgt, hindex, hin, -⟩ := hdelivered packet rfl
      rw [hindex, UInt64.lt_iff_toNat_lt] at hgt
      rw [UInt64.le_iff_toNat_le] at hin
      rw [List.length_cons] at hlength
      exact List.mem_cons_of_mem _ (hends (by omega))

theorem wanders_transcript (memories : List Memory) (hp : p.Fair) :
    ring.Wanders memories p (transcript ring.nextOn memories p).1 (transcript ring.nextOn memories p).2 := by
  induction memories generalizing p with
  | nil =>
    refine ⟨rfl, hp, Nat.le_refl _, rfl, List.Pairwise.nil, ?_, ?_, ?_, ?_⟩
    · rintro _ ⟨⟩
    · rintro _ ⟨⟩
    · rintro ⟨⟩
    · exact fun hlt => absurd hlt (Nat.not_lt_zero _)
  | cons m memories ih =>
    have hstep : ring.Steps m p (ring.nextOn m p).1 (ring.nextOn m p).2 := next_steps hp
    exact hstep.wanders (ih hstep.fair)

/-! ## Where packets come from -/

/-- The slot of a packet holds it: nothing is being written there, the frame carries the index of the packet, and the
payload is no longer than a slot takes. -/
structure InSlot (ring : PacketRing) (queueSize slotSize : Nat) (m : Memory) (packet : IndexedPacket) : Prop where
  sequence_even : m.word64 (ring.lockAt slotSize ((packet.index - 1).toNat % queueSize)).base % 2 = 0
  index_eq : ((ring.lockAt slotSize ((packet.index - 1).toNat % queueSize)).frameIn m).index = packet.index
  data_eq : packet.packet.data = ((ring.lockAt slotSize ((packet.index - 1).toNat % queueSize)).frameIn m).data
  marks_eq : packet.packet.marks =
    .ofFlags ((ring.lockAt slotSize ((packet.index - 1).toNat % queueSize)).frameIn m).flags
  length_le : packet.packet.data.length ≤ slotSize

theorem Sized.inSlot {queueSize slotSize : Nat} (h : ring.Sized queueSize slotSize m) {packet : IndexedPacket}
    (hf : ring.found m packet.index = some packet) : ring.InSlot queueSize slotSize m packet := by
  have hcapacity := h.capacityIn (Nat.mod_lt (packet.index - 1).toNat h.queueSize_pos)
  rw [found, h.run_slot] at hf
  generalize hlock : ring.lockAt slotSize ((packet.index - 1).toNat % queueSize) = lock at hf hcapacity
  obtain ⟨frame, hframe, hpacket⟩ := Option.map_eq_some_iff.1 hf
  obtain ⟨hcontents, hindex⟩ := Option.filter_eq_some_iff.1 hframe
  have hpacket : { data := frame.data, marks := .ofFlags frame.flags } = packet.packet :=
    congrArg IndexedPacket.packet hpacket
  simp only [Seqlock.contents] at hcontents
  split at hcontents
  · cases hcontents
  next hwhole =>
  cases hcontents
  have hlt := Nat.mod_lt (m.word64 lock.base).toNat (show 0 < 2 by decide)
  have heven : m.word64 lock.base % 2 = 0 := by
    rw [Seqlock.Torn, ← UInt64.toNat_inj, UInt64.toNat_mod] at hwhole
    rw [← UInt64.toNat_inj, UInt64.toNat_mod]
    simp only [UInt64.reduceToNat] at hwhole ⊢
    omega
  refine ⟨hlock ▸ heven, hlock ▸ of_decide_eq_true hindex, ?_, ?_, ?_⟩
  · rw [hlock, ← hpacket]
  · rw [hlock, ← hpacket]
  · rw [← hpacket]
    simp only [Seqlock.frameIn, Memory.length_read, hcapacity]
    exact Nat.min_le_right _ _

/-- How many packets are said to be published does not matter for the sizes. -/
theorem Sized.write_index {queueSize slotSize : Nat} (h : ring.Sized queueSize slotSize m) (w : UInt64) :
    ring.Sized queueSize slotSize (m.write ring.base (Memory.bytes64 w)) := by
  have hkeep {offset : Nat} (hle : ring.base + 8 ≤ offset) :
      (m.write ring.base (Memory.bytes64 w)).word64 offset = m.word64 offset :=
    Memory.word64_write_of_disjoint m (.inr (by rwa [Memory.length_bytes64]))
  have hsizes : ring.sizesAt = ring.base + 64 := rfl
  refine ⟨h.queueSize_pos, h.queueSize_lt, h.stride_lt, ?_, ?_, ?_, fun i hi => ?_⟩
  · rw [hkeep (by omega), h.queueSize_eq]
  · rw [hkeep (by omega), h.slotSize_eq]
  · rw [hkeep (by omega), h.stride_eq]
  · have hlock : ring.base ≤ (ring.lockAt slotSize i).base := base_le_lockAt i
    have hsize : (ring.lockAt slotSize i).dataSizeAt = (ring.lockAt slotSize i).base + 64 := rfl
    rw [hkeep (by omega), h.dataSize_eq i hi]

/-! ## Walks -/

/-- **A walk over a ring of which only the sizes are known.** However the memory changes between its steps, the packets
that it delivers have ascending indices, after the cursor and up to the end that was fixed when it began; each of them
stands in the slot of its index; what was delivered and what was skipped are together what the cursor has come past; no
sum and no difference overflows in the step that comes next, and it stays inside the ring; and the walk ends: more steps
than there are indices up to its end find nothing, and once nothing was found nothing changes any more. -/
theorem Sized.walk {queueSize slotSize : Nat} {memories : List Memory}
    (h : ∀ m ∈ memories, ring.Sized queueSize slotSize m) (first : Memory) (cursor : UInt64) :
    let start := ((ring.poll cursor).run first).1
    let run := transcript ring.nextOn memories start
    (packetsOf run.1).Pairwise (fun x y => x.index < y.index) ∧
      (∀ packet ∈ packetsOf run.1, cursor < packet.index ∧ packet.index ≤ first.word64 ring.base) ∧
      (∀ call ∈ memories.zip run.1, ∀ packet, call.2 = some packet → ring.InSlot queueSize slotSize call.1 packet) ∧
      cursor.toNat + (packetsOf run.1).length + run.2.skipped.toNat = run.2.cursor.toNat ∧
      (∀ m, (ring.nextExact run.2).run m = (some ((ring.next run.2).run m).1, m)) ∧
      (∀ m, ring.Sized queueSize slotSize m →
        (ring.next run.2).Within (Access.Inside ring.base (ring.base + size queueSize slotSize)) m) ∧
      ((first.word64 ring.base).toNat - cursor.toNat < memories.length → none ∈ run.1) ∧
      (none ∈ run.1 → ∀ m, (ring.next run.2).run m = ((none, run.2), m)) := by
  intro start run
  have hstart : start = { cursor, stop := first.word64 ring.base } := by simp [start, poll]
  have hfair : start.Fair := by
    rw [hstart]
    exact Nat.zero_le _
  have hrun : ring.Wanders memories start run.1 run.2 := wanders_transcript memories hfair
  obtain ⟨hstop, hfair', -, hcount, hordered, hwithin, hfound, hended, hends⟩ := hrun
  simp only [hstart] at hstop hcount hwithin hended hends
  refine ⟨hordered, hwithin, fun call hcall packet hpacket => ?_, ?_, fun m => run_nextExact hfair',
    fun m hm => hm.next_within _, hends, fun hnone m => ?_⟩
  · exact (h call.1 (List.of_mem_zip hcall).1).inSlot (hfound call hcall packet hpacket)
  · rw [UInt64.toNat_zero] at hcount
    exact hcount
  · have hend := hended hnone
    rw [← hstop] at hend
    rw [next_of_stop_le ring hend]
    rfl

/-- A counter that says that a packet was published, and a slot in which none is. -/
theorem Sized.walk_unfilled :
    let ring : PacketRing := ⟨0⟩
    let m := ((ring.init 2 16).run .zeroed).2.write ring.base (Memory.bytes64 1)
    let run := transcript ring.nextOn [m, m] ((ring.poll 0).run m).1
    (∀ m' ∈ [m, m], ring.Sized 2 16 m') ∧ none ∈ run.1 ∧
      (packetsOf run.1).length + run.2.skipped.toNat = run.2.cursor.toNat := by
  intro ring m run
  have hsized : ring.Sized 2 16 m :=
    (ring.sized_init (by decide) (by decide) (by decide) .zeroed).write_index 1
  have hmem : ∀ m' ∈ [m, m], ring.Sized 2 16 m' := by
    simp only [List.mem_cons, List.not_mem_nil, or_false, or_self, forall_eq]
    exact hsized
  have hwritten : m.word64 ring.base = 1 := Memory.word64_write_bytes64 _ _ _
  obtain ⟨-, -, -, hcount, -, -, hends, -⟩ := Sized.walk hmem m 0
  rw [UInt64.toNat_zero, Nat.zero_add] at hcount
  rw [hwritten] at hends
  exact ⟨hmem, hends (by decide), hcount⟩

end PacketRing

end MediaChannels
