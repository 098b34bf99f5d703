import MediaChannels.Client
import MediaChannels.Proofs.Channel.Parts

/-!
# What can be asked of a channel

The calls on a handle, those of foreign programs among them, and the parts of the channel that each of them names.

* `ChannelCall.perform_sound`: a call stays within the parts that it names, and all parts go on carrying their sizes, so
  the same holds of the next call.
* `ChannelCall.answer_after`: a call does not change the answer of another that names other parts.
* `ChannelHandle.ask`: a call on the bytes of shared memory.
-/

namespace MediaChannels

/-- The calls on a handle, by the type of their answer. The last six are those of foreign programs, which keep a cursor
beside their handle. -/
inductive ChannelCall : Type → Type where
  | isActive : ChannelCall Bool
  | setActive (active : Bool) : ChannelCall Unit
  | codec : ChannelCall Int32
  | setCodec (value : Int32) : ChannelCall Unit
  | display : ChannelCall (Option String)
  | setDisplay (text : String) : ChannelCall (Except Error Unit)
  | pushEvent (event : ControlEvent) : ChannelCall (Except Error Unit)
  | popEvent (kind : ControlKind) : ChannelCall (Option ControlEvent)
  | peekEvent (kind : ControlKind) : ChannelCall (Option ControlEvent)
  | latestEvent (kind : ControlKind) : ChannelCall (Option ControlEvent)
  | pendingEvents (kind : ControlKind) : ChannelCall UInt64
  | pushPacket (packet : Packet) : ChannelCall (Except Error UInt64)
  | pollPackets (cursor : UInt64) : ChannelCall Poll
  | nextPacket (walk : Poll) : ChannelCall (Option IndexedPacket × Poll)
  | writeIndex : ChannelCall UInt64
  | queueSize : ChannelCall UInt64
  | slotSize : ChannelCall UInt64
  | status : ChannelCall ChannelStatus
  | clientPop (cursor : UInt64) (target : PopTarget) : ChannelCall (PopResult × UInt64)
  | clientPush (data : PassedBuffer) (idr : Bool) : ChannelCall Bool
  | clientPushEvent (tag : UInt32) (value : Int64) : ChannelCall Bool
  | clientSetActive (active : Bool) : ChannelCall Unit
  | clientIsActive : ChannelCall Bool
  | clientWriteIndex : ChannelCall UInt64

namespace ChannelCall

variable {α : Type}

/-- The program of a call. -/
def perform (handle : ChannelHandle) : ChannelCall α → Access α
  | isActive => handle.channel.isActive
  | setActive active => handle.channel.setActive active
  | codec => handle.channel.codec
  | setCodec value => handle.channel.setCodec value
  | display => handle.channel.display
  | setDisplay text => handle.channel.setDisplay text
  | pushEvent event => handle.channel.events.push event
  | popEvent kind => handle.channel.events.pop kind
  | peekEvent kind => handle.channel.events.peek kind
  | latestEvent kind => handle.channel.events.latest kind
  | pendingEvents kind => handle.channel.events.pending kind
  | pushPacket packet => handle.channel.packets.push packet
  | pollPackets cursor => handle.channel.packets.poll cursor
  | nextPacket walk => handle.channel.packets.next walk
  | writeIndex => handle.channel.packets.writeIndex
  | queueSize => handle.channel.packets.queueSize
  | slotSize => handle.channel.packets.slotSize
  | status => handle.channel.status
  | clientPop cursor target => do
    let (result, client) ← Client.pop (some { handle, cursor }) target
    return (result, (client.map Client.cursor).getD cursor)
  | clientPush data idr => Client.push (some { handle }) data idr
  | clientPushEvent tag value => Client.pushEvent (some { handle }) tag value
  | clientSetActive active => Client.setActive (some { handle }) active
  | clientIsActive => Client.isActive (some { handle })
  | clientWriteIndex => Client.writeIndex (some { handle })

/-- The parts of the channel that a call names. -/
def parts : ChannelCall α → List ChannelPart
  | isActive | setActive _ | clientSetActive _ | clientIsActive => [.active]
  | codec | setCodec _ => [.codec]
  | display | setDisplay _ => [.display]
  | pushEvent event => [.lane event.kind]
  | popEvent kind | peekEvent kind | latestEvent kind | pendingEvents kind => [.lane kind]
  | clientPushEvent tag value => (ControlEvent.decode? tag value).toList.map (.lane ·.kind)
  | pushPacket _ | pollPackets _ | nextPacket _ | writeIndex | queueSize | slotSize => [.packets]
  | clientPop _ _ | clientPush _ _ | clientWriteIndex => [.packets]
  | status => [.active, .packets, .codec, .display]

end ChannelCall

namespace Channel

open Access

variable {sizes : Sizes} {hv : sizes.Valid} {kind : ChannelKind} {m : Memory}

/-! ## Flag and codec -/

theorem isActive_within :
    (sizes.channel kind).isActive.Within
      (Inside (ChannelPart.active.start sizes kind) (ChannelPart.active.stop sizes kind)) m := by
  simp only [isActive, within_bind, within_bytes, within_pure, and_true]
  exact ⟨Nat.le_refl _, Nat.le_refl _⟩

theorem setActive_within (active : Bool) :
    ((sizes.channel kind).setActive active).Within
      (Inside (ChannelPart.active.start sizes kind) (ChannelPart.active.stop sizes kind)) m := by
  rw [setActive, within_setBytes]
  exact ⟨Nat.le_refl _, Nat.le_refl _⟩

theorem codec_within :
    (sizes.channel kind).codec.Within
      (Inside (ChannelPart.codec.start sizes kind) (ChannelPart.codec.stop sizes kind)) m := by
  simp only [codec, within_bind, within_word32, within_pure, and_true]
  exact ⟨Nat.le_refl _, Nat.le_refl _⟩

theorem setCodec_within (codec : Int32) :
    ((sizes.channel kind).setCodec codec).Within
      (Inside (ChannelPart.codec.start sizes kind) (ChannelPart.codec.stop sizes kind)) m := by
  rw [setCodec, within_setWord32]
  exact ⟨Nat.le_refl _, Nat.le_refl _⟩

/-! ## Display selector -/

/-- However often it is torn, a frame is read inside its lock. -/
theorem readAgain_within {lock : Seqlock} {hi : Nat} (h : lock.payloadAt + lock.capacityIn m ≤ hi) (attempts : Nat) :
    (readAgain lock attempts).Within (Inside lock.base hi) m := by
  induction attempts with
  | zero => exact within_pure _ _
  | succ attempts ih =>
    rw [readAgain, within_bind, lock.run_tryRead]
    refine ⟨lock.tryRead_within h, ?_⟩
    cases lock.contents m with
    | some frame => exact within_pure _ _
    | none => exact ih

theorem payload_end_le_stop {count : Nat} (h : count ≤ Layout.displayCapacity) :
    (sizes.channel kind).displayLock.payloadAt + count ≤ ChannelPart.display.stop sizes kind := by
  have hsize : Seqlock.headerSize + Seqlock.frameHeaderSize + Layout.displayCapacity ≤
      Seqlock.size Layout.displayCapacity := le_alignUp _
  simp only [Seqlock.payloadAt, Seqlock.frameAt, ChannelPart.stop]
  omega

theorem display_within (h : (sizes.channel kind).DisplayReady m) :
    (sizes.channel kind).display.Within
      (Inside (ChannelPart.display.start sizes kind) (ChannelPart.display.stop sizes kind)) m := by
  rw [display, within_bind]
  exact ⟨readAgain_within (payload_end_le_stop (Nat.le_of_eq h)) _, within_pure _ _⟩

theorem setDisplay_within (h : (sizes.channel kind).DisplayReady m) (text : String) :
    ((sizes.channel kind).setDisplay text).Within
      (Inside (ChannelPart.display.start sizes kind) (ChannelPart.display.stop sizes kind)) m := by
  simp only [setDisplay]
  split
  · exact within_pure _ _
  · rw [within_bind]
    refine ⟨Seqlock.write_within _ (payload_end_le_stop ?_), within_pure _ _⟩
    rw [Seqlock.length_cut, h]
    exact Nat.min_le_left _ _

theorem DisplayReady.setDisplay (h : (sizes.channel kind).DisplayReady m) (text : String) :
    (sizes.channel kind).DisplayReady (((sizes.channel kind).setDisplay text).run m).2 := by
  by_cases hl : (Utf8.encode text).length ≤ Layout.displayCapacity
  · rw [run_setDisplay _ hl, DisplayReady, Seqlock.capacityIn_run_write]
    exact h
  · rwa [run_setDisplay_of_lt _ (Nat.not_le.1 hl)]

end Channel

namespace ChannelCall

open Access

variable {α β : Type} {sizes : Sizes} {hv : sizes.Valid} {kind : ChannelKind} {part : ChannelPart} {m m' : Memory}

/-! ## One part at a time -/

/-- A program stays within one part of a channel, and the part goes on carrying its sizes. -/
def Keeps (hv : sizes.Valid) (kind : ChannelKind) (part : ChannelPart) (p : Access α) (m : Memory) : Prop :=
  p.Within (Inside (part.start sizes kind) (part.stop sizes kind)) m ∧ part.Ready hv kind (p.run m).2

theorem Keeps.pure (h : part.Ready hv kind m) (a : α) : Keeps hv kind part (pure a) m := ⟨within_pure _ _, h⟩

theorem Keeps.bind {p : Access α} {f : α → Access β} (hp : Keeps hv kind part p m)
    (hf : Keeps hv kind part (f (p.run m).1) (p.run m).2) : Keeps hv kind part (p >>= f) m := by
  refine ⟨(within_bind _ _ _).2 ⟨hp.1, hf.1⟩, ?_⟩
  rw [run_bind]
  exact hf.2

/-- What a program on one part computes from its answer touches nothing. -/
theorem Keeps.map {p : Access α} (hp : Keeps hv kind part p m) (f : α → β) :
    Keeps hv kind part (p >>= fun a => Pure.pure (f a)) m := hp.bind (.pure hp.2 _)

/-- A program that only reads leaves the sizes alone. -/
theorem Keeps.of_read {p : Access α} (h : part.Ready hv kind m)
    (hp : p.Within (Inside (part.start sizes kind) (part.stop sizes kind)) m) (hm : (p.run m).2 = m) :
    Keeps hv kind part p m := ⟨hp, by rwa [hm]⟩

/-- A program on one part leaves the sizes of all the others alone, too. -/
theorem Keeps.ready {p : Access α} (hp : Keeps hv kind part p m) (hready : ∀ q : ChannelPart, q.Ready hv kind m)
    (q : ChannelPart) : q.Ready hv kind (p.run m).2 := by
  by_cases hq : q = part
  · rw [hq]
    exact hp.2
  · have hwithin := ChannelPart.within_of_mem (List.mem_singleton.2 rfl) hp.1
    exact (hready q).congr (ChannelPart.agree_part_of_within hwithin (.inr fun hmem => hq (List.mem_singleton.1 hmem)))

theorem keeps_setActive (active : Bool) :
    Keeps hv kind .active ((sizes.channel kind).setActive active) m := ⟨Channel.setActive_within active, trivial⟩

section Parts

variable (hready : ∀ q : ChannelPart, q.Ready hv kind m)

include hready

theorem keeps_pushEvent (event : ControlEvent) :
    Keeps hv kind (.lane event.kind) ((sizes.channel kind).events.push event) m := by
  have hlane : ((sizes.channel kind).events.lane event.kind).Sized sizes.eventSlots m := hready (.lane event.kind)
  have hpush : Keeps hv kind (.lane event.kind)
      (((sizes.channel kind).events.lane event.kind).push event.kind.tag event.value) m :=
    ⟨hlane.push_within _ _, hlane.push _ _⟩
  refine hpush.bind ?_
  split
  · exact .pure hpush.2 _
  · exact .pure hpush.2 _

theorem keeps_take (k : ControlKind) (consume : Bool) :
    Keeps hv kind (.lane k) (((sizes.channel kind).events.lane k).take k consume) m := by
  have hlane : ((sizes.channel kind).events.lane k).Sized sizes.eventSlots m := hready (.lane k)
  exact ⟨hlane.take_within _ _, hlane.take _ _⟩

theorem keeps_pending (k : ControlKind) : Keeps hv kind (.lane k) ((sizes.channel kind).events.pending k) m := by
  have hlane : ((sizes.channel kind).events.lane k).Sized sizes.eventSlots m := hready (.lane k)
  exact .of_read hlane hlane.pending_within rfl

theorem keeps_latest (k : ControlKind) : Keeps hv kind (.lane k) ((sizes.channel kind).events.latest k) m := by
  have hlane : ((sizes.channel kind).events.lane k).Sized sizes.eventSlots m := hready (.lane k)
  exact (keeps_pending hready k).bind ⟨hlane.lastAmong_within _ _ _, hlane.lastAmong _ _ _⟩

theorem keeps_pushPacket (packet : Packet) :
    Keeps hv kind .packets ((sizes.channel kind).packets.push packet) m := by
  have hring : (sizes.channel kind).packets.SetUp hv.geometry m := hready .packets
  exact ⟨hring.push_within packet, hring.push packet⟩

theorem keeps_poll (cursor : UInt64) : Keeps hv kind .packets ((sizes.channel kind).packets.poll cursor) m :=
  .of_read (hready .packets) (PacketRing.poll_within (g := hv.geometry) cursor) rfl

theorem keeps_next (walk : Poll) : Keeps hv kind .packets ((sizes.channel kind).packets.next walk) m := by
  have hring : (sizes.channel kind).packets.SetUp hv.geometry m := hready .packets
  exact .of_read hring (hring.next_within walk) (PacketRing.run_next_snd _ _ _)

end Parts

/-! ## All calls -/

/-- What is known of a call: it stays within some parts, and afterwards all parts still carry their sizes. -/
theorem Keeps.sound {p : Access α} {parts : List ChannelPart} (hp : Keeps hv kind part p m)
    (hready : ∀ q : ChannelPart, q.Ready hv kind m) (hmem : part ∈ parts) :
    p.Within (ChannelPart.Within sizes kind parts) m ∧ ∀ q : ChannelPart, q.Ready hv kind (p.run m).2 :=
  ⟨ChannelPart.within_of_mem hmem hp.1, hp.ready hready⟩

section Perform

variable {handle : ChannelHandle}

theorem status_sound (hready : ∀ q : ChannelPart, q.Ready hv kind m) :
    (sizes.channel kind).status.Within (ChannelPart.Within sizes kind status.parts) m ∧
      ∀ q : ChannelPart, q.Ready hv kind ((sizes.channel kind).status.run m).2 := by
  have hcodec : ((sizes.channel kind).codec.run m).2 = m := by simp [Channel.codec]
  refine ⟨?_, by rwa [Channel.run_status_snd]⟩
  simp only [Channel.status, within_bind, Channel.run_isActive, PacketRing.run_writeIndex, hcodec, within_pure,
    and_true]
  have hmem : ChannelPart.active ∈ status.parts ∧ ChannelPart.packets ∈ status.parts ∧
      ChannelPart.codec ∈ status.parts ∧ ChannelPart.display ∈ status.parts := by decide
  obtain ⟨hactive, hpackets, hcodec, hdisplay⟩ := hmem
  exact ⟨ChannelPart.within_of_mem hactive Channel.isActive_within,
    ChannelPart.within_of_mem hpackets (PacketRing.writeIndex_within (g := hv.geometry)),
    ChannelPart.within_of_mem hcodec Channel.codec_within,
    ChannelPart.within_of_mem hdisplay (Channel.display_within (hready .display))⟩

/-- **A call stays within the parts that it names, and all parts go on carrying their sizes.** -/
theorem perform_sound (hready : ∀ q : ChannelPart, q.Ready hv kind m)
    (hhandle : handle.channel = sizes.channel kind) (call : ChannelCall α) :
    (call.perform handle).Within (ChannelPart.Within sizes kind call.parts) m ∧
      ∀ q : ChannelPart, q.Ready hv kind ((call.perform handle).run m).2 := by
  obtain ⟨region, channel⟩ := handle
  dsimp only at hhandle
  subst hhandle
  have hself {q : ChannelPart} : q ∈ [q] := List.mem_singleton.2 rfl
  cases call with
  | isActive => exact (Keeps.of_read (hready .active) Channel.isActive_within rfl).sound hready hself
  | setActive active => exact (keeps_setActive active).sound hready hself
  | codec => exact (Keeps.of_read (hready .codec) Channel.codec_within rfl).sound hready hself
  | setCodec value => exact Keeps.sound ⟨Channel.setCodec_within value, trivial⟩ hready hself
  | display =>
    have hread := congrArg Prod.snd (Channel.run_display (sizes.channel kind) m)
    exact (Keeps.of_read (hready .display) (Channel.display_within (hready .display)) hread).sound hready hself
  | setDisplay text =>
    have hkept := Channel.DisplayReady.setDisplay (hready .display) text
    exact Keeps.sound ⟨Channel.setDisplay_within (hready .display) text, hkept⟩ hready hself
  | pushEvent event => exact (keeps_pushEvent hready event).sound hready hself
  | popEvent k => exact (keeps_take hready k true).sound hready hself
  | peekEvent k => exact (keeps_take hready k false).sound hready hself
  | latestEvent k => exact (keeps_latest hready k).sound hready hself
  | pendingEvents k => exact (keeps_pending hready k).sound hready hself
  | pushPacket packet => exact (keeps_pushPacket hready packet).sound hready hself
  | pollPackets cursor => exact (keeps_poll hready cursor).sound hready hself
  | nextPacket walk => exact (keeps_next hready walk).sound hready hself
  | writeIndex =>
    exact (Keeps.of_read (hready .packets) (PacketRing.writeIndex_within (g := hv.geometry)) rfl).sound hready hself
  | queueSize =>
    exact (Keeps.of_read (hready .packets) (PacketRing.queueSize_within (g := hv.geometry)) rfl).sound hready hself
  | slotSize =>
    exact (Keeps.of_read (hready .packets) (PacketRing.slotSize_within (g := hv.geometry)) rfl).sound hready hself
  | status => exact status_sound hready
  | clientPop cursor target =>
    refine Keeps.sound (Keeps.map ?_ _) hready hself
    simp only [Client.pop]
    split
    · exact .pure (hready .packets) _
    · have hpoll := keeps_poll hready cursor
      have hfetch : Keeps hv kind .packets (Client.fetch ⟨⟨region, sizes.channel kind⟩, cursor⟩) m :=
        hpoll.bind ((keeps_next (hpoll.ready hready) _).map _)
      refine hfetch.bind ?_
      split
      · exact .pure hfetch.2 _
      · exact .pure hfetch.2 _
  | clientPush data idr =>
    refine Keeps.sound ?_ hready hself
    simp only [perform, Client.push]
    split
    · exact .pure (hready .packets) _
    · exact (keeps_pushPacket hready _).map _
  | clientPushEvent tag value =>
    simp only [perform, parts, Client.pushEvent]
    cases ControlEvent.decode? tag value with
    | none => exact ⟨within_pure _ _, hready⟩
    | some event => exact ((keeps_pushEvent hready event).map _).sound hready hself
  | clientSetActive active => exact (keeps_setActive active).sound hready hself
  | clientIsActive => exact (Keeps.of_read (hready .active) Channel.isActive_within rfl).sound hready hself
  | clientWriteIndex =>
    exact (Keeps.of_read (hready .packets) (PacketRing.writeIndex_within (g := hv.geometry)) rfl).sound hready hself

end Perform

/-! ## Two calls -/

section Two

variable {handle handle' : ChannelHandle} {kind' : ChannelKind}

/-- **A call does not change the answer of another** on another channel, or on other parts of the same one. -/
theorem answer_after (hready : ∀ (k : ChannelKind) (q : ChannelPart), q.Ready hv k m)
    (hhandle : handle.channel = sizes.channel kind) (hhandle' : handle'.channel = sizes.channel kind')
    (call : ChannelCall α) (call' : ChannelCall β)
    (hapart : kind ≠ kind' ∨ ∀ q ∈ call'.parts, q ∉ call.parts) :
    ((call'.perform handle').run ((call.perform handle).run m).2).1 = ((call'.perform handle').run m).1 := by
  obtain ⟨hwithin, -⟩ := perform_sound (hready kind) hhandle call
  obtain ⟨hwithin', -⟩ := perform_sound (hready kind') hhandle' call'
  refine (run_fst_congr hwithin' ?_).symm
  rintro lo hi ⟨q, hmem, hlo, hhi⟩
  have hagree := ChannelPart.agree_part_of_within hwithin (hapart.imp_right fun h => h q hmem)
  exact (hagree.mono hlo hhi).symm

/-- A handle counts only for its channel. -/
theorem run_perform_congr (h : handle.channel = handle'.channel) (call : ChannelCall α) (m : Memory) :
    (call.perform handle).run m = (call.perform handle').run m := by
  cases call with
  | clientPop cursor target =>
    simp only [perform, Client.pop]
    split
    · rfl
    · simp only [Client.fetch, h, run_bind, run_pure]
      split <;> rfl
  | clientPushEvent tag value =>
    simp only [perform, Client.pushEvent]
    cases ControlEvent.decode? tag value with
    | none => rfl
    | some event => simp only [h]
  | _ => simp only [perform, Client.push, Client.setActive, Client.isActive, Client.writeIndex, h]

end Two

end ChannelCall

/-- Asks something of a handle. -/
def ChannelHandle.ask {α : Type} (handle : ChannelHandle) (call : ChannelCall α) (s : SharedMemory) :
    α × SharedMemory := s.access handle.region.object (call.perform handle)

end MediaChannels
