import MediaChannels.Proofs.EventLanes.WrapAround
import MediaChannels.Proofs.Segment.Header

/-!
# Calls that are refused

A packet may be too long for a slot, a display selector too long for its field, a lane full, and what a foreign program
passes may be no event or no packet at all. All of that is found out before the first store.

* `Lane.unread`: the entries between the two counters of a lane, whatever these are.
* `Lane.Sized.push_of_lt`: a lane that is not full has one entry more.
* `ChannelCall.refusal`: when a call is refused, and with which answer.
* `ChannelCall.run_perform_of_refusal`, `ChannelCall.perform_of_no_refusal`: what becomes of a call, refused or not.
* `Segment.refused_unchanged`: what is refused leaves every byte as it was, and so does a failed attempt to attach.
-/

namespace MediaChannels

/-! ## Lanes with any counters -/

namespace Lane

/-- The entries between the two counters of a lane, oldest first. -/
def unread (lane : Lane) (slots : Nat) (m : Memory) : List LaneEntry :=
  List.ofFn fun j : Fin (lane.unreadCount m) => lane.entryIn m (place slots (m.word64 lane.readAt) j)

variable {lane : Lane} {slots : Nat} {taken : UInt64} {entries : List LaneEntry} {m : Memory}

@[simp] theorem length_unread (lane : Lane) (slots : Nat) (m : Memory) :
    (lane.unread slots m).length = lane.unreadCount m := by
  rw [unread, List.length_ofFn]

/-- They are what the lane holds. -/
theorem Holds.unread_eq (h : lane.Holds slots taken entries m) : lane.unread slots m = entries := by
  have hlength : (lane.unread slots m).length = entries.length := by
    rw [length_unread, h.unreadCount_eq]
  refine List.ext_getElem hlength fun j hj hj' => ?_
  simp only [unread, List.getElem_ofFn, h.taken_eq]
  exact h.entry_eq j hj'

/-- As long as its counters are no more apart than it has slots, a lane holds something. -/
theorem Sized.holds_unread (h : lane.Sized slots m) (hle : lane.unreadCount m ≤ slots) :
    lane.Holds slots (m.word64 lane.readAt) (lane.unread slots m) m := by
  refine ⟨h.slots_pos, h.slots_lt, h.slotCount_eq, rfl, ?_, ?_, fun j hj => ?_⟩
  · rw [length_unread, unreadCount, UInt64.ofNat_toNat, UInt64.add_comm, UInt64.sub_add_cancel]
  · rwa [length_unread]
  · simp only [unread, List.getElem_ofFn]

theorem wind_within (start : UInt64) : (lane.wind start).Within (Access.Inside lane.base (lane.stop slots)) m := by
  obtain ⟨hread, -, hheader⟩ := header_bounds lane slots
  simp only [wind, Access.within_bind, Access.within_setWord64]
  exact ⟨⟨Nat.le_refl _, by omega⟩, ⟨by omega, by omega⟩⟩

/-- An entry was appended to a lane, and nothing else happened: nobody has taken anything, and outside of the lane no
byte has changed. What is lost when the counters wrap around is `lapped`. -/
structure Appended (lane : Lane) (slots : Nat) (entry : LaneEntry) (m m' : Memory) : Prop where
  unread_eq : lane.unread slots m' = lapped slots (m.word64 lane.base) (lane.unread slots m) entry ++ [entry]
  taken_eq : m'.word64 lane.readAt = m.word64 lane.readAt
  elsewhere : ∀ lo hi, hi ≤ lane.base ∨ lane.stop slots ≤ lo → Memory.Agree lo hi m' m

/-- Nothing is lost if the slots go on across the wrap, and before it. -/
theorem Appended.unread_append {entry : LaneEntry} {m' : Memory} (h : lane.Appended slots entry m m')
    (hkept : slots ∣ 2 ^ 64 ∨ lane.unreadCount m ≤ (m.word64 lane.base).toNat) :
    lane.unread slots m' = lane.unread slots m ++ [entry] := by
  refine h.unread_eq.trans (congrArg (· ++ [entry]) ?_)
  rcases hkept with hdvd | hle
  · exact lapped_of_dvd _ _ _ _ hdvd
  · exact lapped_of_le _ _ _ _ (by rwa [length_unread])

/-- **A lane that is not full has one entry more.** -/
theorem Sized.push_of_lt (h : lane.Sized slots m) (hlt : lane.unreadCount m < slots) (tag : UInt32) (value : Int64) :
    ((lane.push tag value).run m).1 = true ∧ lane.Appended slots (tag, value) m ((lane.push tag value).run m).2 := by
  have hheld := h.holds_unread (Nat.le_of_lt hlt)
  have hroom : (lane.unread slots m).length < slots := by
    rwa [length_unread]
  have hpushed := hheld.push_lapped hroom tag value
  refine ⟨by rw [run_push_of_lt hheld hroom], ?_, hpushed.taken_eq, fun lo hi hapart => ?_⟩
  · rw [hpushed.unread_eq, ← hheld.written_eq]
  · refine Access.agree_run_of_within (h.push_within tag value) fun start stop hinside => ?_
    obtain ⟨hlo, hhi⟩ := hinside
    omega

end Lane

/-! ## Calls on a channel -/

namespace ChannelCall

section Refusal

variable (sizes : Sizes) (kind : ChannelKind) (m : Memory) {α : Type}

/-- The lane of a kind of events has no slot left. -/
def LaneFull (k : ControlKind) : Prop := sizes.eventSlots ≤ ((sizes.channel kind).events.lane k).unreadCount m

instance (k : ControlKind) : Decidable (LaneFull sizes kind m k) := inferInstanceAs (Decidable (_ ≤ _))

/-- The answer with which a call is refused, if it is. -/
def refusal : ChannelCall α → Option α
  | pushPacket packet =>
    if sizes.slotSize < packet.data.length then
      some (.error (.payloadTooLarge sizes.slotSize packet.data.length))
    else none
  | setDisplay text =>
    if Layout.displayCapacity < (Utf8.encode text).length then
      some (.error (.payloadTooLarge Layout.displayCapacity (Utf8.encode text).length))
    else none
  | pushEvent event => if LaneFull sizes kind m event.kind then some (.error (.laneFull event.kind)) else none
  | clientPush data _ => if data.isLost ∨ sizes.slotSize < data.bytes.length then some false else none
  | clientPushEvent tag value =>
    match ControlEvent.decode? tag value with
    | none => some false
    | some event => if LaneFull sizes kind m event.kind then some false else none
  | _ => none

end Refusal

variable {α : Type}

/-- There is no reason to refuse what is not refused. -/
theorem not_of_refusal_eq_none {p : Prop} [Decidable p] {reply : α} (h : (if p then some reply else none) = none) :
    ¬p := fun hp => Option.some_ne_none _ (ite_eq_right_iff.1 h hp)

/-- The answer of a call says that it was refused. -/
def Refuses : ChannelCall α → α → Prop
  | pushPacket _, reply => ∃ e, reply = .error e
  | setDisplay _, reply => ∃ e, reply = .error e
  | pushEvent _, reply => ∃ e, reply = .error e
  | clientPush _ _, reply => reply = false
  | clientPushEvent _ _, reply => reply = false
  | _, _ => False

/-- A pair is no reason for a refusal if it encodes an event, and there is room for that. -/
theorem refusal_clientPushEvent_eq_none_iff {sizes : Sizes} {kind : ChannelKind} {m : Memory} {tag : UInt32}
    {value : Int64} : (clientPushEvent tag value).refusal sizes kind m = none ↔
      ∃ event, ControlEvent.decode tag value = .ok event ∧ ¬LaneFull sizes kind m event.kind := by
  simp only [refusal, ControlEvent.decode]
  cases ControlEvent.decode? tag value with
  | none => simp
  | some event => simp

/-- The event that a call is to append. -/
def event? : ChannelCall α → Option ControlEvent
  | pushEvent event => some event
  | clientPushEvent tag value => ControlEvent.decode? tag value
  | _ => none

section Channel

variable {sizes : Sizes} {hv : sizes.Valid} {kind : ChannelKind} {m : Memory}

theorem run_pushEvent_of_full {event : ControlEvent} (hready : ∀ q : ChannelPart, q.Ready hv kind m)
    (hfull : LaneFull sizes kind m event.kind) :
    ((sizes.channel kind).events.push event).run m = (.error (.laneFull event.kind), m) := by
  have hlane : ((sizes.channel kind).events.lane event.kind).Sized sizes.eventSlots m := hready (.lane event.kind)
  rw [EventLanes.push, Access.run_bind, hlane.push_of_le hfull]
  rfl

theorem run_pushEvent_of_not_full {event : ControlEvent} (hready : ∀ q : ChannelPart, q.Ready hv kind m)
    (hroom : ¬LaneFull sizes kind m event.kind) :
    ∃ m', ((sizes.channel kind).events.push event).run m = (.ok (), m') ∧
      ((sizes.channel kind).events.lane event.kind).Appended sizes.eventSlots event.encode m m' := by
  have hlane : ((sizes.channel kind).events.lane event.kind).Sized sizes.eventSlots m := hready (.lane event.kind)
  obtain ⟨htrue, happended⟩ := hlane.push_of_lt (Nat.lt_of_not_le hroom) event.kind.tag event.value
  refine ⟨_, ?_, happended⟩
  rw [EventLanes.push, Access.run_bind, htrue]
  rfl

variable {handle : ChannelHandle}

/-- What a foreign program sends is the event that it encodes. -/
theorem run_clientPushEvent (hhandle : handle.channel = sizes.channel kind) {tag : UInt32} {value : Int64}
    {event : ControlEvent} (hdecode : ControlEvent.decode? tag value = some event) (m : Memory) :
    ((clientPushEvent tag value).perform handle).run m =
      ((((sizes.channel kind).events.push event).run m).1.toOption.isSome,
        (((sizes.channel kind).events.push event).run m).2) := by
  simp only [perform, Client.pushEvent, hdecode, hhandle, Access.run_bind, Access.run_pure]

/-- What a foreign program publishes is the packet that it passes, or an empty one. -/
theorem run_clientPush (hhandle : handle.channel = sizes.channel kind) {data : PassedBuffer} (hgiven : ¬data.isLost)
    (idr : Bool) (m : Memory) :
    ((clientPush data idr).perform handle).run m =
      ((((sizes.channel kind).packets.push ⟨data.bytes, { idr }⟩).run m).1.toOption.isSome,
        (((sizes.channel kind).packets.push ⟨data.bytes, { idr }⟩).run m).2) := by
  simp only [perform, Client.push, if_neg hgiven, hhandle, Access.run_bind, Access.run_pure]

/-- **A call that is refused leaves the memory as it was.** -/
theorem run_perform_of_refusal (hready : ∀ q : ChannelPart, q.Ready hv kind m)
    (hhandle : handle.channel = sizes.channel kind) {call : ChannelCall α} {reply : α}
    (h : call.refusal sizes kind m = some reply) :
    (call.perform handle).run m = (reply, m) ∧ call.Refuses reply := by
  have hring : (sizes.channel kind).packets.SetUp hv.geometry m := hready .packets
  cases call with
  | pushPacket packet =>
    obtain ⟨hlong, he⟩ := Option.ite_none_right_eq_some.1 h
    cases he
    rw [perform, hhandle]
    exact ⟨PacketRing.push_of_too_large hring hlong, _, rfl⟩
  | setDisplay text =>
    obtain ⟨hlong, he⟩ := Option.ite_none_right_eq_some.1 h
    cases he
    rw [perform, hhandle]
    exact ⟨Channel.run_setDisplay_of_lt _ hlong, _, rfl⟩
  | pushEvent event =>
    obtain ⟨hfull, he⟩ := Option.ite_none_right_eq_some.1 h
    cases he
    rw [perform, hhandle]
    exact ⟨run_pushEvent_of_full hready hfull, _, rfl⟩
  | clientPush data idr =>
    obtain ⟨hbad, he⟩ := Option.ite_none_right_eq_some.1 h
    cases he
    refine ⟨?_, rfl⟩
    by_cases hmissing : data.isLost
    · rw [perform, Client.push, if_pos hmissing]
      rfl
    · have hlong : hv.geometry.slotSize < data.bytes.length := hbad.resolve_left hmissing
      rw [run_clientPush hhandle hmissing, PacketRing.push_of_too_large hring hlong]
      rfl
  | clientPushEvent tag value =>
    simp only [refusal] at h
    cases hdecode : ControlEvent.decode? tag value with
    | none =>
      rw [hdecode] at h
      cases h
      refine ⟨?_, rfl⟩
      simp only [perform, Client.pushEvent, hdecode, Access.run_pure]
    | some event =>
      rw [hdecode] at h
      obtain ⟨hfull, he⟩ := Option.ite_none_right_eq_some.1 h
      cases he
      rw [run_clientPushEvent hhandle hdecode, run_pushEvent_of_full hready hfull]
      exact ⟨rfl, rfl⟩
  | _ => cases h

/-- **An event that is accepted is appended**, and a call that is not refused says so. -/
theorem perform_of_no_refusal (hready : ∀ q : ChannelPart, q.Ready hv kind m)
    (hhandle : handle.channel = sizes.channel kind) {call : ChannelCall α} (h : call.refusal sizes kind m = none) :
    ¬call.Refuses ((call.perform handle).run m).1 ∧
      ∀ event, call.event? = some event →
        ((sizes.channel kind).events.lane event.kind).Appended sizes.eventSlots event.encode m
          ((call.perform handle).run m).2 := by
  have hring : (sizes.channel kind).packets.SetUp hv.geometry m := hready .packets
  cases call with
  | pushPacket packet =>
    have hfits : ¬sizes.slotSize < packet.data.length := not_of_refusal_eq_none h
    rw [perform, hhandle, PacketRing.run_push hring (Nat.le_of_not_lt hfits)]
    exact ⟨by rintro ⟨_, ⟨⟩⟩, by rintro _ ⟨⟩⟩
  | setDisplay text =>
    have hfits : ¬Layout.displayCapacity < (Utf8.encode text).length := not_of_refusal_eq_none h
    rw [perform, hhandle, Channel.run_setDisplay _ (Nat.le_of_not_lt hfits)]
    exact ⟨by rintro ⟨_, ⟨⟩⟩, by rintro _ ⟨⟩⟩
  | pushEvent event =>
    have hroom : ¬LaneFull sizes kind m event.kind := not_of_refusal_eq_none h
    obtain ⟨m', hrun, happended⟩ := run_pushEvent_of_not_full hready hroom
    rw [perform, hhandle, hrun]
    refine ⟨by rintro ⟨_, ⟨⟩⟩, ?_⟩
    rintro _ ⟨⟩
    exact happended
  | clientPush data idr =>
    have hgood : ¬(data.isLost ∨ sizes.slotSize < data.bytes.length) := not_of_refusal_eq_none h
    obtain ⟨hgiven, hshort⟩ := not_or.1 hgood
    have hfits : data.bytes.length ≤ hv.geometry.slotSize := Nat.le_of_not_lt hshort
    rw [run_clientPush hhandle hgiven, PacketRing.run_push hring hfits]
    exact ⟨by rintro ⟨⟩, by rintro _ ⟨⟩⟩
  | clientPushEvent tag value =>
    simp only [refusal] at h
    cases hdecode : ControlEvent.decode? tag value with
    | none =>
      rw [hdecode] at h
      cases h
    | some event =>
      rw [hdecode] at h
      have hroom : ¬LaneFull sizes kind m event.kind := not_of_refusal_eq_none h
      obtain ⟨m', hrun, happended⟩ := run_pushEvent_of_not_full hready hroom
      rw [run_clientPushEvent hhandle hdecode, hrun]
      refine ⟨by rintro ⟨⟩, fun event' he => ?_⟩
      rw [event?, hdecode] at he
      cases he
      exact happended
  | _ => exact ⟨id, by rintro _ ⟨⟩⟩

/-- **The answer says no if and only if there is a refusal.** -/
theorem refuses_iff_isSome_refusal (hready : ∀ q : ChannelPart, q.Ready hv kind m)
    (hhandle : handle.channel = sizes.channel kind) (call : ChannelCall α) :
    call.Refuses ((call.perform handle).run m).1 ↔ (call.refusal sizes kind m).isSome := by
  cases h : call.refusal sizes kind m with
  | some reply =>
    obtain ⟨hrun, hsays⟩ := run_perform_of_refusal hready hhandle h
    rw [hrun]
    exact iff_of_true hsays rfl
  | none => exact iff_of_false (perform_of_no_refusal hready hhandle h).1 Bool.false_ne_true

end Channel

end ChannelCall

namespace Segment

variable {sizes : Sizes} {kind : ChannelKind}

/-! ## Segments whose counters are about to wrap around -/

/-- A segment that was just finished, but for the two counters of one lane. -/
def woundOn (sizes : Sizes) (kind : ChannelKind) (k : ControlKind) (start : UInt64) : Memory :=
  ((((sizes.channel kind).events.lane k).wind start).run ((init sizes (.of sizes)).run .zeroed).2).2

theorem holds_woundOn (hv : sizes.Valid) (kind : ChannelKind) (k : ControlKind) (start : UInt64) :
    ((sizes.channel kind).events.lane k).Holds sizes.eventSlots start [] (woundOn sizes kind k start) := by
  have hfresh : ((sizes.channel kind).events.lane k).Fresh sizes.eventSlots _ := fresh_init hv kind (.lane k)
  exact hfresh.holds.wind start

theorem ready_woundOn (hv : sizes.Valid) (kind : ChannelKind) (k : ControlKind) (start : UInt64) (q : ChannelPart) :
    q.Ready hv kind (woundOn sizes kind k start) := by
  have hwind : ChannelCall.Keeps hv kind (.lane k) (((sizes.channel kind).events.lane k).wind start)
      ((init sizes (.of sizes)).run .zeroed).2 := ⟨Lane.wind_within start, (holds_woundOn hv kind k start).sized⟩
  exact hwind.ready (fun q => (fresh_init hv kind q).ready) q

/-- An event that a foreign program sends to a lane which holds events, of which it leaves some. -/
theorem carries_clientPushEvent {handle : ChannelHandle} (hhandle : handle.channel = sizes.channel kind)
    {k : ControlKind} {taken : UInt64} {queue left : List (EventOf k)} {m : Memory}
    (h : LaneTurn.Carries (sizes.channel kind).events m (taken, queue)) {tag : UInt32} {value : Int64}
    {event : EventOf k} (hdecode : ControlEvent.decode? tag value = some event.1)
    (hroom : ¬sizes.eventSlots ≤ queue.length)
    (hleft : Lane.lapped sizes.eventSlots (taken + .ofNat queue.length) queue event = left) :
    ∃ m', ((ChannelCall.clientPushEvent tag value).perform handle).run m = (true, m') ∧
      LaneTurn.Carries (sizes.channel kind).events m' (taken, left ++ [event]) := by
  subst hleft
  have hstep := LaneTurn.onLane_step (.push event) h
  rw [show (LaneTurn.push event).onRing (sizes.channel kind).events.slots (taken, queue) = _ from if_neg hroom] at hstep
  obtain ⟨hreply, hnext⟩ := hstep
  have hok : (((sizes.channel kind).events.push event.1).run m).1 = .ok () := LaneReply.pushed.inj hreply
  refine ⟨_, ?_, hnext⟩
  rw [ChannelCall.run_clientPushEvent hhandle hdecode, hok]
  rfl

/-! ## Refusals in a segment -/

/-- **What is refused leaves every byte as it was, and an event that is not refused is appended.** Whatever stands in a
channel beside its sizes, and whatever is asked of it, an answer that says no comes exactly when there is a `refusal`,
and is that one. An event that is accepted comes behind the unread entries of its lane, and none of those is lost unless
the counter of the lane has just wrapped around and the number of slots does not divide `2 ^ 64`. Whoever has no channel
is refused as well, and who cannot attach to one has changed nothing. -/
theorem refused_unchanged (hv : sizes.Valid) {m : Memory} (hready : ∀ q : ChannelPart, q.Ready hv kind m)
    {handle : ChannelHandle} (hhandle : handle.channel = sizes.channel kind) :
    (∀ {α : Type} (call : ChannelCall α),
      let real := (call.perform handle).run m
      (call.Refuses real.1 ↔ (call.refusal sizes kind m).isSome) ∧
        (call.Refuses real.1 → call.refusal sizes kind m = some real.1 ∧ real.2 = m) ∧
        (¬call.Refuses real.1 → ∀ event, call.event? = some event →
          let lane := (sizes.channel kind).events.lane event.kind
          lane.Appended sizes.eventSlots event.encode m real.2 ∧
            (sizes.eventSlots ∣ 2 ^ 64 ∨ lane.unreadCount m ≤ (m.word64 lane.base).toNat →
              lane.unread sizes.eventSlots real.2 = lane.unread sizes.eventSlots m ++ [event.encode]))) ∧
      (∀ tag value, (((ChannelCall.clientPushEvent tag value).perform handle).run m).1 = true ↔
        ∃ event, ControlEvent.decode tag value = .ok event ∧ ¬ChannelCall.LaneFull sizes kind m event.kind) ∧
      (∀ data idr, Client.push none data idr = pure false) ∧
      (∀ tag value, Client.pushEvent none tag value = pure false) ∧
      (∀ (s : SharedMemory) (name : String) (index : Nat) (e : Error),
        (attach s name index).1 = .error e → (attach s name index).2 = s) ∧
      ∀ (name : String) (size : Nat) (kind : ChannelKind) (m : Memory), ((verify name size kind).run m).2 = m := by
  refine ⟨fun {α} call => ?_, fun tag value => ?_, fun _ _ => rfl, fun _ _ => rfl, fun _ _ _ _ => attach_snd_of_error,
    run_verify_snd⟩
  · intro real
    have hiff : call.Refuses real.1 ↔ _ := ChannelCall.refuses_iff_isSome_refusal hready hhandle call
    refine ⟨hiff, fun hsays => ?_, fun hsays event he => ?_⟩
    · obtain ⟨reply, hrefusal⟩ := Option.isSome_iff_exists.1 (hiff.1 hsays)
      have hrun : real = (reply, m) := (ChannelCall.run_perform_of_refusal hready hhandle hrefusal).1
      rw [hrun]
      exact ⟨hrefusal, rfl⟩
    · have hnone : call.refusal sizes kind m = none := Option.not_isSome_iff_eq_none.1 (mt hiff.2 hsays)
      have happended := (ChannelCall.perform_of_no_refusal hready hhandle hnone).2 event he
      exact ⟨happended, happended.unread_append⟩
  · rw [← ChannelCall.refusal_clientPushEvent_eq_none_iff, ← Option.not_isSome_iff_eq_none,
      ← ChannelCall.refuses_iff_isSome_refusal hready hhandle]
    exact (Bool.not_eq_false _).symm.to_iff

/-- Four slots go on across the wrap, so what was accepted is there. A packet of 65 bytes is too long for slots of 64,
and nine is the tag of no event. -/
theorem refused_unchanged_four_slots :
    let sizes : Sizes := { queueSize := 2, slotSize := 64, eventSlots := 4 }
    let handle : ChannelHandle := { region := ⟨0, 0, 9088, "desk", false⟩, channel := sizes.channel .video0 }
    let lane := (sizes.channel .video0).events.lane .bitrate
    let m := woundOn sizes .video0 .bitrate 0xffffffffffffffff
    ∃ hv : sizes.Valid, (∀ q : ChannelPart, q.Ready hv .video0 m) ∧ handle.channel = sizes.channel .video0 ∧
      ((ChannelCall.clientPush (.given (List.replicate 65 0)) false).perform handle).run m = (false, m) ∧
      ((ChannelCall.clientPushEvent 9 1).perform handle).run m = (false, m) ∧
      (((ChannelCall.clientPushEvent 1 5).perform handle).run m).1 = true ∧
      lane.unread 4 (((ChannelCall.clientPushEvent 1 5).perform handle).run m).2 = [(1, 5)] := by
  intro sizes handle lane m
  have hv : sizes.Valid := Sizes.check_eq_ok_iff.1 rfl
  have hready := ready_woundOn hv .video0 .bitrate 0xffffffffffffffff
  have hempty : lane.unread 4 m = [] := (holds_woundOn hv .video0 .bitrate 0xffffffffffffffff).unread_eq
  have hroom : ¬ChannelCall.LaneFull sizes .video0 m .bitrate := by
    rw [ChannelCall.LaneFull, ← Lane.length_unread _ 4, hempty]
    decide
  have hhandle : handle.channel = sizes.channel .video0 := rfl
  obtain ⟨hcalls, hevents, -⟩ := refused_unchanged hv hready hhandle
  have hrefused (call : ChannelCall Bool) (h : call.refusal sizes .video0 m = some false) :
      (call.perform handle).run m = (false, m) := by
    obtain ⟨hiff, hkept, -⟩ := hcalls call
    obtain ⟨hreply, hm⟩ := hkept (hiff.2 (by rw [h]; rfl))
    exact Prod.ext (Option.some.inj (hreply.symm.trans h)) hm
  have haccepted := (hevents 1 5).2 ⟨.bitrate 5, rfl, hroom⟩
  obtain ⟨-, -, happended⟩ := hcalls (.clientPushEvent 1 5)
  have hsays : ¬(ChannelCall.clientPushEvent 1 5).Refuses _ := fun h => absurd (haccepted.symm.trans h) (by decide)
  have hunread := (happended hsays (.bitrate 5) rfl).2 (.inl (by decide))
  exact ⟨hv, hready, hhandle, hrefused _ rfl, hrefused _ rfl, haccepted,
    hunread.trans (congrArg (· ++ [((1, 5) : LaneEntry)]) hempty)⟩

/-- **With three slots they do not**: two events are accepted by an empty lane, and the second has taken the place of
the first. -/
theorem accepted_event_lost :
    let sizes : Sizes := { queueSize := 2, slotSize := 64, eventSlots := 3 }
    let handle : ChannelHandle := { region := ⟨0, 0, 8576, "desk", false⟩, channel := sizes.channel .video0 }
    let lane := (sizes.channel .video0).events.lane .bitrate
    let m := woundOn sizes .video0 .bitrate 0xffffffffffffffff
    (∃ hv : sizes.Valid, ∀ q : ChannelPart, q.Ready hv .video0 m) ∧ lane.unread 3 m = [] ∧
      ∃ m₁ m₂,
        ((ChannelCall.clientPushEvent 1 5).perform handle).run m = (true, m₁) ∧ lane.unread 3 m₁ = [(1, 5)] ∧
        ((ChannelCall.clientPushEvent 1 7).perform handle).run m₁ = (true, m₂) ∧ lane.unread 3 m₂ = [(1, 7), (1, 7)] ∧
        (((ChannelCall.popEvent .bitrate).perform handle).run m₂).1 = some (.bitrate 7) := by
  intro sizes handle lane m
  have hv : sizes.Valid := Sizes.check_eq_ok_iff.1 rfl
  have hready := ready_woundOn hv .video0 .bitrate 0xffffffffffffffff
  have hhandle : handle.channel = sizes.channel .video0 := rfl
  let five : EventOf .bitrate := ⟨.bitrate 5, by decide⟩
  let seven : EventOf .bitrate := ⟨.bitrate 7, by decide⟩
  have hempty : LaneTurn.Carries (sizes.channel .video0).events m
      (0xffffffffffffffff, ([] : List (EventOf .bitrate))) := holds_woundOn hv .video0 .bitrate 0xffffffffffffffff
  -- The first event comes into the first slot, for its counter is a multiple of three; then the counter wraps around.
  have hfive : ControlEvent.decode? 1 5 = some five.1 := rfl
  have hkept : Lane.lapped 3 (0xffffffffffffffff + .ofNat 0) [] five = [] := rfl
  obtain ⟨m₁, hfirst, hone⟩ := carries_clientPushEvent hhandle hempty hfive (by decide) hkept
  -- So the second comes into the first slot again.
  have hseven : ControlEvent.decode? 1 7 = some seven.1 := rfl
  have hlost : Lane.lapped 3 (0xffffffffffffffff + .ofNat 1) [five] seven = [seven] := by decide
  obtain ⟨m₂, hsecond, htwo⟩ := carries_clientPushEvent hhandle hone hseven (by decide) hlost
  have hpop := (LaneTurn.onLane_step .pop htwo).1
  exact ⟨⟨hv, hready⟩, hempty.unread_eq, m₁, m₂, hfirst, hone.unread_eq, hsecond, htwo.unread_eq,
    LaneReply.found.inj hpop⟩

end Segment

end MediaChannels
