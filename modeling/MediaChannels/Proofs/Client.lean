import MediaChannels.Client
import MediaChannels.Proofs.PacketRing.Footprint
import MediaChannels.Proofs.PacketRing.Published
import MediaChannels.Proofs.Transcript

/-!
# Foreign clients read the stream

A foreign client begins a walk at every call, takes one packet from it, and leaves it. Only its cursor goes on from call
to call, and still the calls hand out what one walk delivers from the first cursor on.

* `Poll.Alike`, `drain_alike`: what a walk delivers does not depend on what was skipped before.
* `run_fetch`: a client fetches the first of the packets that are to come, and leaves the others.
* `PopTarget.serve`: what a call does to the packets that are to come, in terms of its buffer.
* `transcript_popOn`: any sequence of calls, on a ring to which nothing is added.
-/

namespace MediaChannels

/-! ## Walks that are left and begun again -/

/-- Two walks stand at the same place and have the same end; what they have skipped may differ. -/
def Poll.Alike (p p' : Poll) : Prop := p.cursor = p'.cursor ∧ p.stop = p'.stop

namespace PacketRing

variable {ring : PacketRing} {m : Memory} {p p' : Poll}

theorem alike_skipTo (h : p.Alike p') (floor : UInt64) : (p.skipTo floor).Alike (p'.skipTo floor) := by
  obtain ⟨hcursor, hstop⟩ := h
  simp only [Poll.Alike, Poll.stop_skipTo, hstop, and_true]
  simp only [Poll.skipTo, hcursor]
  split
  · rfl
  · exact hcursor

/-- A step of a walk does not depend on what was skipped before. -/
theorem next_alike (h : p.Alike p') :
    ((ring.next p).run m).1.1 = ((ring.next p').run m).1.1 ∧
      ((ring.next p).run m).1.2.Alike ((ring.next p').run m).1.2 := by
  refine ring.run_next_induct m (P := fun p r => ∀ p', p.Alike p' →
    r.1.1 = ((ring.next p').run m).1.1 ∧ r.1.2.Alike ((ring.next p').run m).1.2) ?ended ?overtaken ?delivers ?passes
    p p' h
  case ended =>
    intro p hle p' h
    rw [ring.run_next m p', if_pos (h.1 ▸ h.2 ▸ hle)]
    exact ⟨rfl, h⟩
  case overtaken =>
    intro p hn hle p' h
    have hskip := alike_skipTo h (ring.floorIn m)
    rw [ring.run_next m p', if_neg (h.1 ▸ h.2 ▸ hn), if_pos (hskip.1 ▸ h.2 ▸ hle)]
    exact ⟨rfl, hskip⟩
  case delivers =>
    intro p packet hlt hf p' h
    have hskip := alike_skipTo h (ring.floorIn m)
    have hn : ¬p'.stop ≤ p'.cursor := fun hle => hlt (UInt64.le_trans (h.1 ▸ h.2 ▸ hle) (p.le_cursor_skipTo _))
    rw [ring.run_next m p', if_neg hn, if_neg (hskip.1 ▸ h.2 ▸ hlt), ← hskip.1, hf]
    refine ⟨rfl, ?_, hskip.2⟩
    rw [Poll.deliver, Poll.deliver, hskip.1]
  case passes =>
    intro p r hlt hf ih p' h
    have hskip := alike_skipTo h (ring.floorIn m)
    have hn : ¬p'.stop ≤ p'.cursor := fun hle => hlt (UInt64.le_trans (h.1 ▸ h.2 ▸ hle) (p.le_cursor_skipTo _))
    rw [ring.run_next m p', if_neg hn, if_neg (hskip.1 ▸ h.2 ▸ hlt), ← hskip.1, hf]
    refine ih _ ⟨?_, hskip.2⟩
    rw [Poll.skip, Poll.skip, hskip.1]

variable (ring m)

/-- A whole walk does not depend on what was skipped before. -/
theorem drain_alike (h : p.Alike p') :
    (ring.drain m p).1 = (ring.drain m p').1 ∧ (ring.drain m p).2.Alike (ring.drain m p').2 := by
  induction hr : p.stop.toNat - p.cursor.toNat using Nat.strongRecOn generalizing p p' with
  | ind r ih =>
    have hstep : ((ring.next p).run m).1.1 = ((ring.next p').run m).1.1 ∧
        ((ring.next p).run m).1.2.Alike ((ring.next p').run m).1.2 := next_alike h
    rcases hn : ((ring.next p).run m).1 with ⟨_ | packet, q⟩ <;>
      rcases hn' : ((ring.next p').run m).1 with ⟨reply', q'⟩ <;>
      rw [hn, hn'] at hstep <;>
      obtain ⟨rfl, hq⟩ := hstep
    · rw [drain_of_next_none hn, drain_of_next_none hn']
      exact ⟨rfl, hq⟩
    · obtain ⟨hlt, hle, hstop⟩ := ring.lt_of_run_next m hn
      have hless : q.stop.toNat - q.cursor.toNat < r := by
        rw [hstop]
        omega
      obtain ⟨hrest, hlast⟩ := ih _ hless hq rfl
      rw [drain_of_next_some hn, drain_of_next_some hn', hrest]
      exact ⟨rfl, hlast⟩

/-- A walk that has found nothing is at its end. -/
theorem stop_le_of_next_none {q : Poll} (h : ((ring.next p).run m).1 = (none, q)) :
    p.stop ≤ q.cursor ∧ q.stop = p.stop := by
  refine ring.run_next_induct m (P := fun p r => r.1 = (none, q) → p.stop ≤ q.cursor ∧ q.stop = p.stop) ?ended
    ?overtaken ?delivers ?passes p h
  case ended =>
    rintro p hle ⟨⟩
    exact ⟨hle, rfl⟩
  case overtaken =>
    rintro p - hle ⟨⟩
    exact ⟨hle, Poll.stop_skipTo _ _⟩
  case delivers => rintro p packet - - ⟨⟩
  case passes =>
    intro p r _ _ ih hr
    have hstop : (p.skipTo (ring.floorIn m)).skip.stop = p.stop := Poll.stop_skipTo _ _
    rw [← hstop]
    exact ih hr

/-- A frame says the length of its payload in 32 bits. -/
theorem length_lt_of_found {index : UInt64} {packet : IndexedPacket} (h : ring.found m index = some packet) :
    packet.packet.data.length < 2 ^ 32 := by
  obtain ⟨frame, hframe, rfl⟩ := Option.map_eq_some_iff.1 h
  obtain ⟨hcontents, -⟩ := Option.filter_eq_some_iff.1 hframe
  rw [Seqlock.contents] at hcontents
  split at hcontents
  · cases hcontents
  · cases hcontents
    simp only [Seqlock.frameIn, Memory.length_read]
    exact Nat.lt_of_le_of_lt (Nat.min_le_left _ _) (UInt32.toNat_lt _)

theorem length_lt_of_next {q : Poll} {packet : IndexedPacket} (h : ((ring.next p).run m).1 = (some packet, q)) :
    packet.packet.data.length < 2 ^ 32 := by
  refine ring.run_next_induct m (P := fun p r => r.1 = (some packet, q) → packet.packet.data.length < 2 ^ 32) ?ended
    ?overtaken ?delivers ?passes p h
  case ended => rintro p - ⟨⟩
  case overtaken => rintro p - - ⟨⟩
  case delivers =>
    rintro p packet - hf ⟨⟩
    exact ring.length_lt_of_found m hf
  case passes => exact fun p r _ _ ih hr => ih hr

theorem length_lt_of_mem_drain (p : Poll) {packet : IndexedPacket} (h : packet ∈ (ring.drain m p).1) :
    packet.packet.data.length < 2 ^ 32 := by
  induction hr : p.stop.toNat - p.cursor.toNat using Nat.strongRecOn generalizing p with
  | ind r ih =>
    rcases hn : ((ring.next p).run m).1 with ⟨_ | first, q⟩
    · rw [drain_of_next_none hn] at h
      cases h
    · rw [drain_of_next_some hn] at h
      rcases List.mem_cons.1 h with rfl | hlater
      · exact ring.length_lt_of_next m hn
      · obtain ⟨hlt, hle, hstop⟩ := ring.lt_of_run_next m hn
        exact ih _ (by rw [hstop]; omega) q hlater rfl

/-! ## What is to come -/

/-- The packets that are to come after a cursor, and the cursor after the last of them. -/
def upcoming (cursor : UInt64) : List IndexedPacket × UInt64 :=
  ((ring.drain m ((ring.poll cursor).run m).1).1, (ring.drain m ((ring.poll cursor).run m).1).2.cursor)

/-- **A walk that is begun and left after one step has the first of the packets that are to come, and leaves the
others.** -/
theorem next_upcoming (cursor : UInt64) :
    ((ring.next ((ring.poll cursor).run m).1).run m).1.1 = (ring.upcoming m cursor).1.head? ∧
      ring.upcoming m ((ring.next ((ring.poll cursor).run m).1).run m).1.2.cursor =
        ((ring.upcoming m cursor).1.tail, (ring.upcoming m cursor).2) := by
  have hpoll (cursor : UInt64) : ((ring.poll cursor).run m).1 = { cursor, stop := m.word64 ring.base } := by
    simp [poll]
  simp only [upcoming, hpoll]
  rcases hn : ((ring.next { cursor, stop := m.word64 ring.base }).run m).1 with ⟨_ | packet, q⟩
  · obtain ⟨hle, hstop⟩ := ring.stop_le_of_next_none m hn
    rw [drain_of_next_none hn, drain_of_stop_le hle]
    exact ⟨rfl, rfl⟩
  · obtain ⟨-, -, hstop⟩ := ring.lt_of_run_next m hn
    have halike : Poll.Alike { cursor := q.cursor, stop := m.word64 ring.base } q := ⟨rfl, hstop.symm⟩
    obtain ⟨hrest, hlast⟩ := ring.drain_alike m halike
    rw [drain_of_next_some hn, hrest, hlast.1]
    exact ⟨rfl, rfl⟩

end PacketRing

/-! ## Calls -/

/-- The call is refused: the buffer is missing, and its length is not zero. -/
def PopTarget.Refused (target : PopTarget) : Prop := target.buffer.isLost

instance (target : PopTarget) : Decidable target.Refused := inferInstanceAs (Decidable (_ = true))

/-- What a caller finds who was given a packet: its length, as many of its bytes as the buffer has room for and the rest
of the buffer as it was, and whether it is a keyframe. -/
def PopTarget.received (target : PopTarget) (packet : Packet) : PopResult :=
  { length := some packet.data.length
    buffer := target.buffer.map fun buffer => buffer.mapIdx fun i old => packet.data[i]?.getD old
    flag := target.flag.map fun _ => packet.marks.idr }

/-- A call on the packets that are to come: the first of them is handed out, unless the call is refused. -/
def PopTarget.serve (target : PopTarget) (packets : List IndexedPacket) : PopResult × List IndexedPacket :=
  if target.Refused then (Client.nothing target, packets)
  else (packets.head?.elim (Client.nothing target) fun packet => target.received packet.packet, packets.tail)

/-- The number that a call returns: the length of the packet, or -1 if there is none. -/
def PopResult.code (result : PopResult) : Int64 := result.length.elim (-1) .ofNat

namespace Client

/-- A call of a client, or of a missing one. -/
def popOn (target : PopTarget) (s : Option Client × Memory) : PopResult × (Option Client × Memory) :=
  let ((result, client), m) := (pop s.1 target).run s.2
  (result, (client, m))

theorem fill_eq (buffer data : List UInt8) : fill buffer data = buffer.mapIdx fun i old => data[i]?.getD old := by
  refine List.ext_getElem ((fill_length buffer data).trans List.length_mapIdx.symm) fun i hi hi' => ?_
  rw [fill_length] at hi
  have htake : (data.take buffer.length).length = min buffer.length data.length := List.length_take
  rw [List.getElem_mapIdx]
  simp only [fill]
  rcases Nat.lt_or_ge i data.length with hdata | hdata
  · rw [List.getElem_append_left (by omega), List.getElem_take, List.getElem?_eq_getElem hdata, Option.getD_some]
  · rw [List.getElem_append_right (by omega), List.getElem_drop, List.getElem?_eq_none hdata, Option.getD_none]
    congr 1
    omega

variable (client : Client) (m : Memory)

/-- **A client fetches the first of the packets that are to come.** -/
theorem run_fetch :
    ∃ cursor, client.fetch.run m =
        (((client.handle.channel.packets.upcoming m client.cursor).1.head?, { client with cursor }), m) ∧
      client.handle.channel.packets.upcoming m cursor =
        ((client.handle.channel.packets.upcoming m client.cursor).1.tail,
          (client.handle.channel.packets.upcoming m client.cursor).2) := by
  obtain ⟨hfirst, hrest⟩ := client.handle.channel.packets.next_upcoming m client.cursor
  have hpoll : ((client.handle.channel.packets.poll client.cursor).run m).2 = m := by simp [PacketRing.poll]
  refine ⟨_, ?_, hrest⟩
  rw [← hfirst]
  simp only [fetch, Access.run_bind, Access.run_pure, hpoll, PacketRing.run_next_snd]

/-- What is to come for a client that stands for another, further on in its stream. -/
structure Ahead (client : Client) (m : Memory) (s : Option Client × Memory) (packets : List IndexedPacket) : Prop where
  memory_eq : s.2 = m
  client_eq : ∃ cursor, s.1 = some { client with cursor } ∧
    client.handle.channel.packets.upcoming m cursor =
      (packets, (client.handle.channel.packets.upcoming m client.cursor).2)

variable {client m}

/-- **A call hands out the next packet that is to come**, whatever the buffer. -/
theorem popOn_serve (target : PopTarget) {s : Option Client × Memory} {packets : List IndexedPacket}
    (h : client.Ahead m s packets) :
    (popOn target s).1 = (target.serve packets).1 ∧ client.Ahead m (popOn target s).2 (target.serve packets).2 := by
  obtain ⟨rfl, cursor, hs, hupcoming⟩ := h
  obtain ⟨s, m⟩ := s
  obtain rfl : s = some { client with cursor } := hs
  simp only at hupcoming ⊢
  by_cases hr : target.Refused
  · have hpop : pop (some { client with cursor }) target = pure (nothing target, some { client with cursor }) := by
      rw [pop_of_isLost _ hr]
    rw [popOn, hpop, PopTarget.serve, if_pos hr]
    exact ⟨rfl, rfl, cursor, rfl, hupcoming⟩
  · obtain ⟨cursor', hfetch, hrest⟩ := run_fetch { client with cursor } m
    simp only [hupcoming] at hfetch hrest
    have hpop : popOn target (some { client with cursor }, m) =
        (packets.head?.elim (nothing target) fun packet => target.received packet.packet,
          (some { client with cursor := cursor' }, m)) := by
      have hr' : ¬target.buffer.isLost := hr
      simp only [popOn, pop, if_neg hr', Access.run_bind, hfetch]
      cases packets with
      | nil => rfl
      | cons packet packets =>
        simp only [List.head?_cons, Access.run_pure, Option.elim_some, PopTarget.received, fill_eq]
    rw [hpop, PopTarget.serve, if_neg hr]
    exact ⟨rfl, rfl, cursor', rfl, hrest⟩

/-- Calls hand out the packets one by one; those that are refused leave them. -/
theorem transcript_serve_snd (targets : List PopTarget) (packets : List IndexedPacket) :
    (transcript PopTarget.serve targets packets).2 =
      packets.drop (targets.countP fun target => ¬target.Refused) := by
  induction targets generalizing packets with
  | nil => rfl
  | cons target targets ih =>
    simp only [transcript, ih, PopTarget.serve, List.countP_cons]
    by_cases hr : target.Refused
    · simp [hr]
    · simp [hr, List.drop_tail]

/-- A packet is shorter than a returned number can say. -/
theorem code_of_length_lt {result : PopResult} (h : ∀ n, result.length = some n → n < 2 ^ 32) :
    (result.code = -1 ↔ result.length = none) ∧ ∀ n, result.length = some n → result.code.toInt = n := by
  rw [PopResult.code]
  cases hl : result.length with
  | none => exact ⟨iff_of_true rfl rfl, by rintro _ ⟨⟩⟩
  | some n =>
    have hn := h n hl
    have hcode : (Int64.ofNat n).toInt = n := Int64.toInt_ofNat_of_lt (by omega)
    refine ⟨iff_of_false (fun he => ?_) (by simp), ?_⟩
    · have hnumber : (Int64.ofNat n).toInt = (-1 : Int64).toInt := congrArg Int64.toInt he
      rw [hcode, show (-1 : Int64).toInt = -1 by decide] at hnumber
      omega
    · rintro _ ⟨⟩
      exact hcode

theorem length_lt_of_mem_serve (targets : List PopTarget) {packets : List IndexedPacket}
    (h : ∀ packet ∈ packets, packet.packet.data.length < 2 ^ 32) {result : PopResult}
    (hresult : result ∈ (transcript PopTarget.serve targets packets).1) {n : Nat} (hn : result.length = some n) :
    n < 2 ^ 32 := by
  induction targets generalizing packets with
  | nil => cases hresult
  | cons target targets ih =>
    rw [transcript, PopTarget.serve] at hresult
    by_cases hr : target.Refused
    · rw [if_pos hr] at hresult
      rcases List.mem_cons.1 hresult with rfl | hlater
      · cases hn
      · exact ih h hlater
    · rw [if_neg hr] at hresult
      cases packets with
      | nil =>
        rcases List.mem_cons.1 hresult with rfl | hlater
        · cases hn
        · exact ih h hlater
      | cons packet packets =>
        rcases List.mem_cons.1 hresult with rfl | hlater
        · cases hn
          exact h packet List.mem_cons_self
        · exact ih (fun packet' hmem => h packet' (List.mem_cons_of_mem _ hmem)) hlater

/-- A call stays inside the ring. -/
theorem pop_within {client : Client} {queueSize slotSize : Nat} {m : Memory}
    (h : client.handle.channel.packets.Sized queueSize slotSize m) (target : PopTarget) :
    (pop (some client) target).Within (Access.Inside client.handle.channel.packets.base
      (client.handle.channel.packets.base + PacketRing.size queueSize slotSize)) m := by
  have hbase : client.handle.channel.packets.base + 8 ≤
      client.handle.channel.packets.base + PacketRing.size queueSize slotSize :=
    Nat.add_le_add_left (Nat.le_trans (by decide) (Nat.le_add_right PacketRing.headerSize _)) _
  have hrun : ((client.handle.channel.packets.poll client.cursor).run m).2 = m := by simp [PacketRing.poll]
  have hfetch : client.fetch.Within (Access.Inside client.handle.channel.packets.base
      (client.handle.channel.packets.base + PacketRing.size queueSize slotSize)) m := by
    simp only [fetch, Access.within_bind, Access.within_pure, and_true, hrun]
    refine ⟨?_, h.next_within _⟩
    simp only [PacketRing.poll, PacketRing.writeIndex, Access.within_bind, Access.within_word64, Access.within_pure,
      and_true]
    exact ⟨Nat.le_refl _, hbase⟩
  simp only [pop]
  split
  · exact Access.within_pure _ _
  · refine (Access.within_bind _ _ _).2 ⟨hfetch, ?_⟩
    split <;> exact Access.within_pure _ _

/-- **Calls with any buffers hand out what one walk delivers.** On a ring to which nothing is added, call by call, a
caller finds the length of the next packet, its keyframe mark, and as many of its bytes as the buffer has room for;
after the last packet -1 is returned, and never before, and buffer and mark stay as they were. A call that is refused
changes nothing; every other one brings the client on by one packet, however short its buffer. -/
theorem transcript_popOn {client : Client} {queueSize slotSize : Nat} {m : Memory}
    (h : client.handle.channel.packets.Sized queueSize slotSize m) (targets : List PopTarget) :
    let ring := client.handle.channel.packets
    let drained := ring.drain m ((ring.poll client.cursor).run m).1
    let calls := transcript popOn targets (some client, m)
    calls.1 = (transcript PopTarget.serve targets drained.1).1 ∧
      (∀ result ∈ calls.1, (result.code = -1 ↔ result.length = none) ∧
        ∀ n, result.length = some n → result.code.toInt = n) ∧
      calls.2.2 = m ∧
      ∃ cursor, calls.2.1 = some { client with cursor } ∧
        (let rest := ring.drain m ((ring.poll cursor).run m).1
         rest.1 = drained.1.drop (targets.countP fun target => ¬target.Refused) ∧
           rest.2.cursor = drained.2.cursor) ∧
        ∀ target, (pop (some { client with cursor }) target).Within
          (Access.Inside ring.base (ring.base + PacketRing.size queueSize slotSize)) m := by
  intro ring drained calls
  have hstart : client.Ahead m (some client, m) drained.1 := ⟨rfl, client.cursor, rfl, rfl⟩
  obtain ⟨hreplies, hlast⟩ := transcript_eq_of_simulation (R := fun _ => client.Ahead m)
    (fun target _ _ _ h => popOn_serve target h) targets hstart
  obtain ⟨hmemory, cursor, hclient, hrest⟩ := hlast
  rw [transcript_serve_snd] at hrest
  refine ⟨hreplies, fun result hresult => ?_, hmemory, cursor, hclient, ?_, ?_⟩
  · rw [show calls.1 = _ from hreplies] at hresult
    exact code_of_length_lt fun n hn =>
      length_lt_of_mem_serve targets (fun packet => ring.length_lt_of_mem_drain m _) hresult hn
  · exact ⟨congrArg Prod.fst hrest, congrArg Prod.snd hrest⟩
  · exact fun target => @pop_within { client with cursor } _ _ m h target

/-- A packet that is longer than the buffer, a refused call, an empty packet, and a call that finds nothing. -/
theorem transcript_popOn_truncated :
    let client : Client :=
      { handle :=
        { region := { mapping := 0, object := 0, size := 8576, name := "seg", owner := true }
          channel := .ofLayout .input (.of { queueSize := 2, slotSize := 64, eventSlots := 1 }) 1 } }
    let ring := client.handle.channel.packets
    let m := ((ring.pushAll [{ data := [1, 2, 3], marks := { idr := true } }, { data := [] }]).run
      ((ring.init 2 64).run .zeroed).2).2
    let targets : List PopTarget :=
      [{ buffer := .given [9, 9], flag := some false }, { buffer := .missing 5, flag := none },
        { buffer := .missing 0, flag := none }, { buffer := .given [9], flag := some true }]
    ring.Sized 2 64 m ∧ (transcript popOn targets (some client, m)).1 =
      [{ length := some 3, buffer := .given [1, 2], flag := some true },
        { length := none, buffer := .missing 5, flag := none },
        { length := some 0, buffer := .missing 0, flag := none },
        { length := none, buffer := .given [9], flag := some true }] := by
  intro client ring m targets
  have hhealthy : ring.Healthy { queueSize := 2, slotSize := 64 } _ m :=
    (PacketRing.healthy_init ring { queueSize := 2, slotSize := 64 } .zeroed).pushAll _
  have hsized : ring.Sized 2 64 m := hhealthy.setUp.sized
  have hdrained : ring.drain m ((ring.poll 0).run m).1 = _ :=
    PacketRing.drain_of_holds hhealthy.holds (Nat.zero_le _) (Nat.zero_le _)
  have hcalls : (transcript popOn targets (some client, m)).1 =
      (transcript PopTarget.serve targets (ring.drain m ((ring.poll 0).run m).1).1).1 :=
    (transcript_popOn hsized targets).1
  rw [hdrained] at hcalls
  exact ⟨hsized, hcalls.trans (by decide)⟩

end Client

end MediaChannels
