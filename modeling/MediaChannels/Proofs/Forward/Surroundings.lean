import MediaChannels.Proofs.Forward.Mailboxes
import MediaChannels.Proofs.Segment.Rings

/-!
# What goes on around a forwarder

Between two steps of a forwarder, others use the mailboxes of its process, or ask something of the channels of its
segment, in any number and order.

* `OutsideTurn`: one thing that others do.
* `Environment.Sound`: what bytes and mailboxes keep, whoever uses them: all parts of all channels carry their sizes,
  and the mailboxes are in order. `Environment.Sound.access`, `Environment.Sound.outside`: programs of the forwarder
  and turns of others keep it.
* `PacketRing.Publishes.perform`, `OutsideTurn.publishes`: a ring publishes what it is offered, as far as it fits.
-/

namespace MediaChannels

/-! ## What a call publishes -/

namespace ChannelCall

variable {α : Type}

/-- The packet that a call offers to the ring; a foreign program that passes no data offers none, unless it is empty. -/
def packet? : ChannelCall α → Option Packet
  | pushPacket packet => some packet
  | clientPush data idr => if data.isLost then none else some { data := data.bytes, marks := { idr } }
  | _ => none

/-- What a foreign program takes from a ring leaves the bytes alone. -/
theorem run_clientPop_snd (handle : ChannelHandle) (cursor : UInt64) (target : PopTarget) (m : Memory) :
    (((clientPop cursor target).perform handle).run m).2 = m := by
  simp only [perform, Client.pop]
  split
  · rfl
  · simp only [Client.fetch, Access.run_bind]
    split <;> exact PacketRing.run_next_snd _ _ _

end ChannelCall

namespace PacketRing

open ChannelCall

variable {α : Type} {sizes : Sizes} {hv : sizes.Valid} {kind kind' : ChannelKind} {m : Memory} {handle : ChannelHandle}
  {torn : Nat → Bool} {start : Nat} {packets : List Packet}

/-- A program that stays away from a ring leaves it as it is. -/
theorem Publishes.of_within {p : Access α} {parts : List ChannelPart}
    (h : (sizes.channel kind).packets.Publishes hv.geometry torn start packets m)
    (hp : p.Within (ChannelPart.Within sizes kind' parts) m) (hapart : kind' ≠ kind ∨ .packets ∉ parts) :
    (sizes.channel kind).packets.Publishes hv.geometry torn start packets (p.run m).2 := by
  have hagree : Memory.Agree (ChannelPart.packets.start sizes kind) (ChannelPart.packets.stop sizes kind)
      (p.run m).2 m := ChannelPart.agree_part_of_within hp hapart
  exact h.congr hagree

/-- So does a program on another part of the channel. -/
theorem Publishes.of_keeps {p : Access α} {part : ChannelPart}
    (h : (sizes.channel kind).packets.Publishes hv.geometry torn start packets m) (hp : Keeps hv kind part p m)
    (hpart : part ≠ .packets) :
    (sizes.channel kind).packets.Publishes hv.geometry torn start packets (p.run m).2 :=
  h.of_within (ChannelPart.within_of_mem (List.mem_singleton.2 rfl) hp.1)
    (.inr fun hmem => hpart (List.mem_singleton.1 hmem).symm)

/-- A packet that is offered is published, if it fits. -/
theorem Publishes.offer {ring : PacketRing} {g : Geometry} (h : ring.Publishes g torn start packets m)
    (packet : Packet) :
    ring.Publishes g torn start (epoch (packets ++ [packet].filter (·.data.length ≤ g.slotSize)))
      ((ring.push packet).run m).2 := by
  have hall := h.pushAll [packet]
  rw [pushAll_cons, Access.run_bind] at hall
  exact hall

/-- **A call adds the packet that it offers to the ring, if it fits.** -/
theorem Publishes.perform (h : (sizes.channel kind).packets.Publishes hv.geometry torn start packets m)
    (hready : ∀ q : ChannelPart, q.Ready hv kind m) (hhandle : handle.channel = sizes.channel kind)
    (call : ChannelCall α) :
    (sizes.channel kind).packets.Publishes hv.geometry torn start
      (epoch (packets ++ call.packet?.toList.filter (·.data.length ≤ sizes.slotSize)))
      ((call.perform handle).run m).2 := by
  have hnothing (hoffer : call.packet? = none)
      (hkept : (sizes.channel kind).packets.Publishes hv.geometry torn start packets ((call.perform handle).run m).2) :
      (sizes.channel kind).packets.Publishes hv.geometry torn start
        (epoch (packets ++ call.packet?.toList.filter (·.data.length ≤ sizes.slotSize)))
        ((call.perform handle).run m).2 := by
    rw [hoffer, Option.toList_none, List.filter_nil, List.append_nil, epoch_of_lt h.length_lt]
    exact hkept
  have hread (hoffer : call.packet? = none) (hm : ((call.perform handle).run m).2 = m) := hnothing hoffer (by rwa [hm])
  cases call with
  | pushPacket packet =>
    simp only [ChannelCall.perform, hhandle]
    exact h.offer packet
  | clientPush data idr =>
    by_cases hmissing : data.isLost
    · refine hread (if_pos hmissing) ?_
      rw [ChannelCall.perform, Client.push, if_pos hmissing]
      rfl
    · simp only [ChannelCall.perform, Client.push, packet?, if_neg hmissing, hhandle, Access.run_bind]
      exact h.offer _
  | pollPackets cursor => exact hread rfl rfl
  | nextPacket walk => exact hread rfl (run_next_snd _ _ _)
  | writeIndex => exact hread rfl rfl
  | queueSize => exact hread rfl rfl
  | slotSize => exact hread rfl rfl
  | status => exact hread rfl (Channel.run_status_snd _ m)
  | clientPop cursor target => exact hread rfl (run_clientPop_snd handle cursor target m)
  | clientWriteIndex => exact hread rfl rfl
  | _ =>
    -- The other calls name parts that are no ring.
    refine hnothing rfl (h.of_within (perform_sound hready hhandle _).1 (.inr ?_))
    simp [parts]

/-- Whether a packet that is offered is published. -/
theorem SetUp.isOk_push {ring : PacketRing} {g : Geometry} (h : ring.SetUp g m) (packet : Packet) :
    ((ring.push packet).run m).1.isOk = decide (packet.data.length ≤ g.slotSize) := by
  by_cases hp : packet.data.length ≤ g.slotSize
  · rw [run_push h hp, decide_eq_true hp]
    rfl
  · rw [push_of_too_large h (Nat.not_le.1 hp), decide_eq_false hp]
    rfl

end PacketRing

/-! ## Bytes and mailboxes in use -/

/-- All parts of all channels of the segment carry their sizes, and the mailboxes are in order. -/
structure Environment.Sound {sizes : Sizes} (hv : sizes.Valid) (env : Environment) : Prop where
  ready : ∀ (kind : ChannelKind) (part : ChannelPart), part.Ready hv kind env.memory
  orderly : env.office.Orderly

namespace Environment.Sound

variable {α : Type} {sizes : Sizes} {hv : sizes.Valid} {kind : ChannelKind} {env : Environment} {office : Office}

/-- A segment that was just written. -/
theorem init (hv : sizes.Valid) (ho : office.Orderly) :
    Sound hv { memory := ((Segment.init sizes (.of sizes)).run .zeroed).2, office } :=
  ⟨fun kind part => (Segment.fresh_init hv kind part).ready, ho⟩

/-- The mailboxes may be used in any way that leaves them in order. -/
theorem withOffice (h : env.Sound hv) (ho : office.Orderly) : Sound hv { env with office } := ⟨h.ready, ho⟩

/-- A program on one channel that leaves the sizes of its parts alone leaves all sizes alone. -/
theorem access (h : env.Sound hv) {p : Access α} {parts : List ChannelPart}
    (hp : p.Within (ChannelPart.Within sizes kind parts) env.memory ∧
      ∀ q : ChannelPart, q.Ready hv kind (p.run env.memory).2) : (env.access p).2.Sound hv := by
  obtain ⟨hwithin, hready⟩ := hp
  refine ⟨fun k part => ?_, h.orderly⟩
  by_cases hk : k = kind
  · rw [hk]
    exact hready part
  · exact (h.ready k part).congr (ChannelPart.agree_part_of_within hwithin (.inl (Ne.symm hk)))

/-- So does a program on one of its parts. -/
theorem keeps (h : env.Sound hv) {p : Access α} {part : ChannelPart}
    (hp : ChannelCall.Keeps hv kind part p env.memory) : (env.access p).2.Sound hv :=
  h.access (hp.sound (h.ready kind) (List.mem_singleton.2 rfl))

end Environment.Sound

/-! ## Turns of others -/

/-- What others do between two steps of a forwarder: they use mailboxes, or ask something of a channel of the
segment. -/
inductive OutsideTurn : Type 1 where
  | mail (use : MailUse)
  | ask (region : Region) (kind : ChannelKind) {α : Type} (call : ChannelCall α)

/-- A turn of a forwarder's loop, or of others. -/
inductive ForwardTurn : Type 1 where
  | step
  | outside (turn : OutsideTurn)

namespace OutsideTurn

/-- Bytes and mailboxes after a turn. -/
def perform (sizes : Sizes) : OutsideTurn → Environment → Environment
  | mail use, env => { env with office := use.perform env.office }
  | ask region kind call, env => (env.access (call.perform ⟨region, sizes.channel kind⟩)).2

/-- The packets that a turn offers to the ring of a channel. -/
def offered (kind : ChannelKind) : OutsideTurn → List Packet
  | mail _ => []
  | ask _ k call => if k = kind then call.packet?.toList else []

/-- The packets that a turn appends to the queue of a forwarder. -/
def queued (f : Forwarder) (env : Environment) : OutsideTurn → List Packet
  | mail use => use.packetsFor env.office f.session (MailKey.packetQueue f.channel.kind).text
  | ask .. => []

variable {sizes : Sizes} {hv : sizes.Valid} {kind : ChannelKind} {f : Forwarder} {env : Environment}
  {torn : Nat → Bool} {start : Nat} {packets : List Packet}

theorem extends_perform (sizes : Sizes) (turn : OutsideTurn) (env : Environment) :
    env.office.Extends (turn.perform sizes env).office := by
  cases turn with
  | mail use => exact use.extends_perform env.office
  | ask region kind call => exact .refl _

/-- Packets come out of the queue of a forwarder in the order in which they were put in. -/
theorem pending_perform_sublist (sizes : Sizes) (f : Forwarder) (h : env.office.Orderly) (turn : OutsideTurn) :
    (f.incoming (turn.perform sizes env).office).pending.Sublist
      ((f.incoming env.office).pending ++ turn.queued f env) := by
  cases turn with
  | mail use => exact use.pending_queueUnder_perform h _ _
  | ask region kind call =>
    rw [queued, List.append_nil]
    exact .refl _

/-- **What others offer to a ring is published, as far as it fits.** -/
theorem publishes (h : env.Sound hv)
    (hring : (sizes.channel kind).packets.Publishes hv.geometry torn start packets env.memory) (turn : OutsideTurn) :
    (sizes.channel kind).packets.Publishes hv.geometry torn start
      (PacketRing.epoch (packets ++ (turn.offered kind).filter (·.data.length ≤ sizes.slotSize)))
      (turn.perform sizes env).memory := by
  have hnothing {m : Memory} (hkept : (sizes.channel kind).packets.Publishes hv.geometry torn start packets m) :
      (sizes.channel kind).packets.Publishes hv.geometry torn start
        (PacketRing.epoch (packets ++ [].filter (·.data.length ≤ sizes.slotSize))) m := by
    rwa [List.filter_nil, List.append_nil, PacketRing.epoch_of_lt hring.length_lt]
  cases turn with
  | mail use => exact hnothing hring
  | ask region k call =>
    rw [offered]
    by_cases hk : k = kind
    · subst hk
      rw [if_pos rfl]
      exact hring.perform (h.ready k) rfl call
    · rw [if_neg hk]
      exact hnothing (hring.of_within (ChannelCall.perform_sound (h.ready k) rfl call).1 (.inl hk))

end OutsideTurn

/-- The packets that others offer to the ring of a channel in a turn. -/
def ForwardTurn.offered (kind : ChannelKind) : ForwardTurn → List Packet
  | step => []
  | outside turn => turn.offered kind

namespace Environment.Sound

variable {sizes : Sizes} {hv : sizes.Valid} {env : Environment}

/-- **Whatever others do, all parts go on carrying their sizes, and the mailboxes stay in order.** -/
theorem outside (h : env.Sound hv) (turn : OutsideTurn) : (turn.perform sizes env).Sound hv := by
  cases turn with
  | mail use => exact h.withOffice (use.orderly_perform h.orderly)
  | ask region kind call => exact h.access (ChannelCall.perform_sound (h.ready kind) rfl call)

end Environment.Sound

end MediaChannels
