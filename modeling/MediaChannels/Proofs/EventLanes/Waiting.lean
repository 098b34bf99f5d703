import MediaChannels.Client
import MediaChannels.Command.Process
import MediaChannels.Proofs.Segment.Refusals

/-!
# Events that wait in a lane

Events come from outside as texts of a command line, or as pairs that a foreign program passes, and go into a lane as
pairs again. Whoever takes them out drops what is no event. All three agree on what an event is, so what was accepted is
not dropped: it waits in its slot until its turn has come.

* `wellFormed_of_parse`, `Client.pushEvent_eq`: what comes from outside is well formed.
* `Lane.Waits`: an entry stands unread in its slot, behind some others.
* `LaneCall.EndsWait`: a call hands the event out, empties the lane, or puts an entry into the slot of the event.
* `Waits.push`, `Waits.take`: what appending to the lane and looking for its oldest event mean for the entry.
* `waits_step`, `waits_run`: any other call leaves it there, and every pop of its kind brings it forward.
* `encodings_agree`: all of this at once; `waiting_event_overwritten`: the slot of an event can be used again before its
  turn has come, when the counters wrap around.
-/

namespace MediaChannels

/-! ## Events from outside -/

namespace ControlEvent

variable {event : ControlEvent}

/-- A text is never read as an event that a lane would drop. -/
theorem wellFormed_of_parse {text : String} (h : parse text = .ok event) : event.WellFormed := by
  unfold parse at h
  split at h
  · next hread =>
    cases h
    exact wellFormed_of_ofText? hread
  · cases h

/-- An event that somebody can send: a text is read as the event, or a pair is. -/
def FromOutside (event : ControlEvent) : Prop :=
  (∃ text, parse text = .ok event) ∨ ∃ tag value, decode tag value = .ok event

theorem FromOutside.wellFormed (h : event.FromOutside) : event.WellFormed := by
  rcases h with ⟨text, h⟩ | ⟨tag, value, h⟩
  · exact wellFormed_of_parse h
  · exact (decode_eq_ok_iff.1 h).2

/-- A pair that encodes no event is given back in the error. -/
theorem decode_eq_error {tag : UInt32} {value : Int64}
    (h : ¬∃ event : ControlEvent, event.encode = (tag, value) ∧ event.WellFormed) :
    decode tag value = .error (.malformedEvent tag value) := by
  rw [decode]
  cases hd : decode? tag value with
  | none => rfl
  | some event => exact (h ⟨event, decode?_eq_some_iff.1 hd⟩).elim

end ControlEvent

/-- A foreign program stores the well-formed event that its pair encodes, or nothing. -/
theorem Client.pushEvent_eq (client : Client) (tag : UInt32) (value : Int64) :
    (∃ event, ControlEvent.decode tag value = .ok event ∧
      Client.pushEvent (some client) tag value =
        (do let result ← client.handle.channel.events.push event; return result.toOption.isSome)) ∨
    ControlEvent.decode tag value = .error (.malformedEvent tag value) ∧
      Client.pushEvent (some client) tag value = pure false := by
  simp only [Client.pushEvent, ControlEvent.decode]
  cases ControlEvent.decode? tag value with
  | none => exact .inr ⟨rfl, rfl⟩
  | some event => exact .inl ⟨event, rfl, rfl⟩

/-! ## Waiting -/

namespace Lane

variable {lane : Lane} {slots ahead : Nat} {taken counter : UInt64} {entry : LaneEntry}
  {entries front : List LaneEntry} {kind : ControlKind} {event : ControlEvent} {m : Memory}

/-- The entry that was stored under a counter is unread, and stands in its slot, behind `ahead` others. -/
structure Waits (lane : Lane) (slots : Nat) (counter : UInt64) (entry : LaneEntry) (ahead : Nat) (m : Memory) :
    Prop where
  holds : lane.Holds slots (m.word64 lane.readAt) (lane.unread slots m) m
  counter_eq : m.word64 lane.readAt + .ofNat ahead = counter
  entry_eq : (lane.unread slots m)[ahead]? = some entry

theorem Holds.waits (h : lane.Holds slots taken entries m) (hcounter : taken + .ofNat ahead = counter)
    (hentry : entries[ahead]? = some entry) : lane.Waits slots counter entry ahead m := by
  refine ⟨?_, ?_, ?_⟩
  · rw [h.unread_eq, h.taken_eq]
    exact h
  · rw [h.taken_eq, hcounter]
  · rw [h.unread_eq, hentry]

theorem Waits.congr (h : lane.Waits slots counter entry ahead m) {m' : Memory}
    (ha : Memory.Agree lane.base (lane.stop slots) m' m) : lane.Waits slots counter entry ahead m' :=
  (h.holds.congr ha).waits h.counter_eq h.entry_eq

/-- The entries in front of one that waits, and those behind it. -/
theorem Waits.split (h : lane.Waits slots counter entry ahead m) :
    lane.unread slots m = (lane.unread slots m).take ahead ++ entry :: (lane.unread slots m).drop (ahead + 1) ∧
      ((lane.unread slots m).take ahead).length = ahead := by
  obtain ⟨hlt, hget⟩ := List.getElem?_eq_some_iff.1 h.entry_eq
  refine ⟨?_, by rw [List.length_take, Nat.min_eq_left (Nat.le_of_lt hlt)]⟩
  rw [← hget, List.getElem_cons_drop, List.take_append_drop]

/-- The search for the oldest event comes no further than to an event. -/
theorem fromEvent_append_cons (h : entry.event? kind = some event) (front back : List LaneEntry) :
    fromEvent kind (front ++ entry :: back) = fromEvent kind front ++ entry :: back := by
  induction front with
  | nil => exact fromEvent_cons_of_some h
  | cons first front ih =>
    cases hfirst : first.event? kind with
    | none => rw [List.cons_append, fromEvent_cons_of_none hfirst, fromEvent_cons_of_none hfirst, ih]
    | some _ => rw [List.cons_append, fromEvent_cons_of_some hfirst, fromEvent_cons_of_some hfirst, List.cons_append]

/-- With no event in front of this one, all is dropped that is in front, and this one if it is consumed. -/
theorem leftover_of_first (h : entry.event? kind = some event) (hfront : fromEvent kind front = []) (consume : Bool)
    (back : List LaneEntry) :
    leftover kind consume (front ++ entry :: back) = if consume then back else entry :: back := by
  rw [leftover, fromEvent_append_cons h, hfront, List.nil_append, List.tail_cons]

/-- With an event in front of it, it stays behind what is left of the front, and comes forward if that is consumed. -/
theorem leftover_of_later (h : entry.event? kind = some event) (hfront : fromEvent kind front ≠ []) (consume : Bool)
    (back : List LaneEntry) :
    leftover kind consume (front ++ entry :: back) = leftover kind consume front ++ entry :: back ∧
      (leftover kind consume front).length + consume.toNat ≤ front.length := by
  obtain ⟨first, rest, hfirst⟩ := List.exists_cons_of_ne_nil hfront
  have hle := length_fromEvent_le kind front
  rw [leftover, leftover, fromEvent_append_cons h, hfirst]
  rw [hfirst, List.length_cons] at hle
  cases consume with
  | true => exact ⟨rfl, hle⟩
  | false => exact ⟨rfl, hle⟩

theorem eventsOf_eq_nil_of_fromEvent (h : fromEvent kind front = []) : eventsOf kind front = [] := by
  rw [← eventsOf_fromEvent, h]
  rfl

theorem eventsOf_append_cons (h : entry.event? kind = some event) (front back : List LaneEntry) :
    eventsOf kind (front ++ entry :: back) = eventsOf kind front ++ event :: eventsOf kind back := by
  rw [eventsOf, List.filterMap_append, List.filterMap_cons_some h]
  rfl

/-- A counter that is `rest` behind another, and below it, has wrapped around. -/
theorem le_of_wrapped {rest : Nat} (hrest : rest < 2 ^ 64) (hcounter : taken + .ofNat ahead = counter)
    (hwrapped : (taken + .ofNat (ahead + rest)).toNat < rest) : 2 ^ 64 ≤ counter.toNat + rest := by
  rw [UInt64.ofNat_add, ← UInt64.add_assoc, hcounter, UInt64.toNat_add, UInt64.toNat_ofNat',
    Nat.mod_eq_of_lt hrest] at hwrapped
  refine Nat.le_of_not_lt fun hlt => ?_
  rw [Nat.mod_eq_of_lt hlt] at hwrapped
  omega

/-- What is appended takes the place of an entry if it comes behind the wrap, by as many places as `2 ^ 64` leaves. -/
theorem getElem?_lapped {written : UInt64} (hentry : entries[ahead]? = some entry)
    (hplace : ¬(written.toNat < 2 ^ 64 % slots ∧ entries.length = ahead + 2 ^ 64 % slots)) (new : LaneEntry) :
    (lapped slots written entries new ++ [new])[ahead]? = some entry := by
  have hlt : ahead < entries.length := (List.getElem?_eq_some_iff.1 hentry).1
  rw [List.getElem?_append_left (by rwa [length_lapped]), lapped]
  split
  · next hlap =>
    rw [List.getElem?_set_ne (fun h => hplace ⟨hlap.1, by omega⟩), hentry]
  · exact hentry

/-- There it takes its place. -/
theorem getElem?_lapped_self {written : UInt64} (hwritten : written.toNat < 2 ^ 64 % slots)
    (hplace : entries.length = ahead + 2 ^ 64 % slots) (new : LaneEntry) :
    (lapped slots written entries new ++ [new])[ahead]? = some new := by
  have hlt : ahead < entries.length := by omega
  rw [List.getElem?_append_left (by rwa [length_lapped]), lapped, if_pos ⟨hwritten, by omega⟩, hplace,
    Nat.add_sub_cancel, List.getElem?_set_self hlt]

/-- Appending leaves an entry where it is, or comes into its slot. -/
theorem Waits.push (h : lane.Waits slots counter entry ahead m) (tag : UInt32) (value : Int64) :
    (lane.unreadCount m < slots ∧ 2 ^ 64 ≤ counter.toNat + 2 ^ 64 % slots ∧
        lane.unreadCount m = ahead + 2 ^ 64 % slots ∧
        (lane.unread slots ((lane.push tag value).run m).2)[ahead]? = some (tag, value)) ∨
      lane.Waits slots counter entry ahead ((lane.push tag value).run m).2 := by
  obtain ⟨hheld, hcounter, hentry⟩ := h
  rcases Nat.lt_or_ge (lane.unread slots m).length slots with hroom | hfull
  · have hpushed := hheld.push_lapped hroom tag value
    by_cases hplace : (m.word64 lane.readAt + .ofNat (lane.unread slots m).length).toNat < 2 ^ 64 % slots ∧
        (lane.unread slots m).length = ahead + 2 ^ 64 % slots
    · -- The counter of the new entry has wrapped around, into the slot of this one.
      left
      obtain ⟨hwrapped, hlength⟩ := hplace
      have hlost := getElem?_lapped_self hwrapped hlength (tag, value)
      rw [← hpushed.unread_eq] at hlost
      have hrest : 2 ^ 64 % slots < 2 ^ 64 := Nat.lt_trans (Nat.mod_lt _ hheld.slots_pos) hheld.slots_lt
      rw [hlength] at hwrapped
      rw [← length_unread _ slots]
      exact ⟨hroom, le_of_wrapped hrest hcounter hwrapped, hlength, hlost⟩
    · exact .inr (hpushed.waits hcounter (getElem?_lapped hentry hplace _))
  · rw [run_push_of_full hheld hfull]
    exact .inr ⟨hheld, hcounter, hentry⟩

/-- Looking for the oldest event finds this one, if there is no event in front of it, and moves it forward otherwise. -/
theorem Waits.take (h : lane.Waits slots counter entry ahead m) (hevent : entry.event? kind = some event)
    (consume : Bool) :
    let after := (lane.take kind consume).run m
    eventsOf kind ((lane.unread slots m).take ahead) = [] ∧ after.1 = some event ∧
        (if consume then after.2.word64 lane.readAt = counter + 1
          else lane.Waits slots counter entry 0 after.2) ∨
      ∃ ahead', lane.Waits slots counter entry ahead' after.2 ∧ ahead' + consume.toNat ≤ ahead := by
  intro after
  obtain ⟨hsplit, hahead⟩ := h.split
  obtain ⟨hheld, hcounter, -⟩ := h
  generalize (lane.unread slots m).take ahead = front at hsplit hahead ⊢
  generalize (lane.unread slots m).drop (ahead + 1) = back at hsplit
  have hlength : (lane.unread slots m).length = ahead + (back.length + 1) := by
    rw [hsplit, List.length_append, hahead, List.length_cons]
  have hfound := run_take hheld kind consume
  have hnext := hheld.take kind consume
  rw [hlength] at hnext
  rw [hsplit] at hfound hnext
  by_cases hfront : fromEvent kind front = []
  · -- Everything in front is malformed and dropped.
    left
    rw [fromEvent_append_cons hevent, hfront, List.nil_append, List.head?_cons, Option.bind_some, hevent] at hfound
    rw [leftover_of_first hevent hfront] at hnext
    refine ⟨eventsOf_eq_nil_of_fromEvent hfront, hfound, ?_⟩
    cases consume with
    | true =>
      rw [if_pos rfl, show ahead + (back.length + 1) - back.length = ahead + 1 by omega, UInt64.ofNat_add,
        ← UInt64.add_assoc, hcounter] at hnext
      exact hnext.taken_eq
    | false =>
      rw [if_neg Bool.false_ne_true, List.length_cons, Nat.add_sub_cancel, hcounter] at hnext
      exact hnext.waits (UInt64.add_zero counter) rfl
  · -- The oldest event is one in front.
    right
    obtain ⟨hleft, hforward⟩ := leftover_of_later hevent hfront consume back
    rw [hahead] at hforward
    rw [hleft, List.length_append, List.length_cons] at hnext
    refine ⟨(leftover kind consume front).length, hnext.waits ?_ ?_, hforward⟩
    · rw [UInt64.add_assoc, ← UInt64.ofNat_add, ← hcounter]
      congr 2
      omega
    · rw [List.getElem?_append_right (Nat.le_refl _), Nat.sub_self]
      rfl

end Lane

/-! ## Calls while an event waits -/

namespace LaneCall

open Lane

/-- The call takes the oldest event of a kind. -/
def pops (k : ControlKind) : LaneCall → Bool
  | pop kind => kind = k
  | _ => false

theorem pops_eq_false {k : ControlKind} {call : LaneCall} (h : call.kind ≠ k) : call.pops k = false := by
  cases call with
  | pop kind => exact decide_eq_false h
  | _ => rfl

/-- The entry that the call appends. -/
def entry? : LaneCall → Option LaneEntry
  | push event => some event.encode
  | enter _ entry => some entry
  | _ => none

/-- A call ends the wait of the event that was stored under a counter and is behind `ahead` entries: it hands the event
out, with no event in front of it; or it empties the lane, and gives the last of this event and those behind it; or it
appends an entry whose counter has wrapped around, into the slot of the event, where this entry is found afterwards. -/
inductive EndsWait (lanes : EventLanes) (event : ControlEvent) (counter : UInt64) (ahead : Nat) (m : Memory) :
    LaneCall → Prop where
  | handedOut
    (hfront : eventsOf event.kind (((lanes.lane event.kind).unread lanes.slots m).take ahead) = [])
    (hreply : ((pop event.kind).onLanes lanes m).1 = .found (some event))
    (hread : ((pop event.kind).onLanes lanes m).2.word64 (lanes.lane event.kind).readAt = counter + 1) :
    EndsWait lanes event counter ahead m (pop event.kind)
  | emptied
    (hreply : ((latest event.kind).onLanes lanes m).1 =
      .found (event :: eventsOf event.kind
        (((lanes.lane event.kind).unread lanes.slots m).drop (ahead + 1))).getLast?) :
    EndsWait lanes event counter ahead m (latest event.kind)
  | overwritten {call : LaneCall} (hcall : call.appendsTo event.kind)
    (hroom : (lanes.lane event.kind).unreadCount m < lanes.slots)
    (hwrap : 2 ^ 64 ≤ counter.toNat + 2 ^ 64 % lanes.slots)
    (hplace : (lanes.lane event.kind).unreadCount m = ahead + 2 ^ 64 % lanes.slots)
    (hlost : ((lanes.lane event.kind).unread lanes.slots (call.onLanes lanes m).2)[ahead]? = call.entry?) :
    EndsWait lanes event counter ahead m call

variable {lanes : EventLanes} {event : ControlEvent} {counter : UInt64} {ahead : Nat} {m : Memory}

/-- An event waits still after some calls, and every pop among them has brought it forward. -/
def StillWaits (lanes : EventLanes) (event : ControlEvent) (counter : UInt64) (ahead : Nat) (calls : List LaneCall)
    (m : Memory) : Prop :=
  ∃ ahead', (lanes.lane event.kind).Waits lanes.slots counter event.encode ahead' m ∧
    ahead' + calls.countP (pops event.kind) ≤ ahead

/-- A call of its kind ends the wait of an event or leaves it in its slot, and a pop that does not hand it out brings it
forward. -/
theorem waits_step_of_kind_eq {call : LaneCall} (hwell : event.WellFormed)
    (h : (lanes.lane event.kind).Waits lanes.slots counter event.encode ahead m) (hcall : call.kind = event.kind) :
    call.EndsWait lanes event counter ahead m ∨
      StillWaits lanes event counter ahead [call] (call.onLanes lanes m).2 := by
  have hevent : LaneEntry.event? event.kind event.encode = some event := by
    rw [LaneEntry.event?_encode, if_pos hwell]
  cases call with
  | push other =>
    replace hcall : other.kind = event.kind := hcall
    have hafter := lanes.onLanes_push_snd other m
    rw [hcall] at hafter
    rcases h.push event.kind.tag other.value with ⟨hroom, hwrap, hplace, hlost⟩ | hnext
    · refine .inl (.overwritten (decide_eq_true hcall) hroom hwrap hplace ?_)
      rw [hafter, hlost, entry?, ControlEvent.encode, hcall]
    · exact .inr ⟨ahead, hafter ▸ hnext, Nat.le_refl _⟩
  | enter k entry =>
    obtain rfl : k = event.kind := hcall
    rcases h.push entry.1 entry.2 with ⟨hroom, hwrap, hplace, hlost⟩ | hnext
    · exact .inl (.overwritten (decide_eq_true rfl) hroom hwrap hplace hlost)
    · exact .inr ⟨ahead, hnext, Nat.le_refl _⟩
  | pop k =>
    obtain rfl : k = event.kind := hcall
    rcases h.take hevent true with ⟨hfront, hfound, hread⟩ | ⟨ahead', hnext, hle⟩
    · exact .inl (.handedOut hfront (congrArg LaneReply.found hfound) hread)
    · refine .inr ⟨ahead', hnext, ?_⟩
      rwa [List.countP_cons_of_pos (show (pop event.kind).pops event.kind = true from decide_eq_true rfl)]
  | peek k =>
    obtain rfl : k = event.kind := hcall
    rcases h.take hevent false with ⟨-, -, hnext⟩ | ⟨ahead', hnext, hle⟩
    · exact .inr ⟨0, hnext, Nat.zero_le _⟩
    · exact .inr ⟨ahead', hnext, hle⟩
  | latest k =>
    obtain rfl : k = event.kind := hcall
    refine .inl (.emptied (congrArg LaneReply.found ((EventLanes.run_latest h.holds).1.trans ?_)))
    refine (congrArg (fun entries => (eventsOf event.kind entries).getLast?) h.split.1).trans ?_
    rw [eventsOf_append_cons hevent, List.getLast?_append, List.getLast?_cons, Option.some_or]
  | pending k =>
    obtain rfl : k = event.kind := hcall
    refine .inr ⟨ahead, ?_, Nat.le_refl _⟩
    rw [onLanes, EventLanes.pending, h.holds.run_pending]
    exact h

/-- **A call ends the wait of an event or leaves it in its slot**: calls of other kinds do not come near it. -/
theorem waits_step {call : LaneCall} (hwell : event.WellFormed) (hsized : (lanes.lane call.kind).Sized lanes.slots m)
    (h : (lanes.lane event.kind).Waits lanes.slots counter event.encode ahead m) :
    call.EndsWait lanes event counter ahead m ∨
      StillWaits lanes event counter ahead [call] (call.onLanes lanes m).2 := by
  by_cases hcall : call.kind = event.kind
  · exact waits_step_of_kind_eq hwell h hcall
  · refine .inr ⟨ahead, h.congr (EventLanes.agree_lane_onLanes hsized (Ne.symm hcall)), ?_⟩
    rw [List.countP_singleton, pops_eq_false hcall]
    exact Nat.le_refl _

/-- What becomes of an event in the course of some calls: it waits still, or one of them has ended its wait. -/
def Settles (lanes : EventLanes) (event : ControlEvent) (counter : UInt64) (ahead : Nat) (calls : List LaneCall)
    (m : Memory) : Prop :=
  StillWaits lanes event counter ahead calls (transcript (onLanes lanes) calls m).2 ∨
    ∃ before call after ahead',
      calls = before ++ call :: after ∧ ahead' + before.countP (pops event.kind) ≤ ahead ∧
        call.EndsWait lanes event counter ahead' (transcript (onLanes lanes) before m).2

/-- **An event waits in its slot until a call ends its wait.** -/
theorem waits_run (hwell : event.WellFormed) (calls : List LaneCall)
    (hsized : ∀ call ∈ calls, (lanes.lane call.kind).Sized lanes.slots m)
    (h : (lanes.lane event.kind).Waits lanes.slots counter event.encode ahead m) :
    Settles lanes event counter ahead calls m := by
  -- Each pop that does not hand the event out lowers `ahead`, so it is general in the induction.
  induction calls generalizing ahead m with
  | nil => exact .inl ⟨ahead, h, Nat.le_refl _⟩
  | cons call calls ih =>
    have hcall := hsized call List.mem_cons_self
    rcases waits_step hwell hcall h with hends | ⟨ahead', hnext, hle⟩
    · exact .inr ⟨[], call, calls, ahead, rfl, Nat.le_refl _, hends⟩
    · have hrest : ∀ c ∈ calls, (lanes.lane c.kind).Sized lanes.slots (call.onLanes lanes m).2 := fun c hc =>
        EventLanes.sized_onLanes hcall (hsized c (List.mem_cons_of_mem _ hc))
      rw [List.countP_singleton] at hle
      rcases ih hrest hnext with ⟨last, hwaits, hlast⟩ | ⟨before, ender, after, last, rfl, hlast, hends⟩
      · refine .inl ⟨last, hwaits, ?_⟩
        rw [List.countP_cons]
        omega
      · refine .inr ⟨call :: before, ender, after, last, rfl, ?_, hends⟩
        rw [List.countP_cons]
        omega

/-- **An event that is pushed into a lane with room settles**: it waits behind all that is unread. -/
theorem settles_of_push (hwell : event.WellFormed) (hsized : (lanes.lane event.kind).Sized lanes.slots m)
    (hroom : (lanes.lane event.kind).unreadCount m < lanes.slots) :
    ∃ m', (lanes.push event).run m = (.ok (), m') ∧
      ∀ calls : List LaneCall, (∀ call ∈ calls, (lanes.lane call.kind).Sized lanes.slots m) →
        Settles lanes event (m.word64 (lanes.lane event.kind).base) ((lanes.lane event.kind).unreadCount m) calls
          m' := by
  have hheld := hsized.holds_unread (Nat.le_of_lt hroom)
  have hlt : ((lanes.lane event.kind).unread lanes.slots m).length < lanes.slots := by
    rwa [length_unread]
  have hpushed := hheld.push_lapped hlt event.kind.tag event.value
  rw [← lanes.onLanes_push_snd event m] at hpushed
  have hwaits : (lanes.lane event.kind).Waits lanes.slots (m.word64 (lanes.lane event.kind).base) event.encode
      ((lanes.lane event.kind).unreadCount m) ((push event).onLanes lanes m).2 := by
    rw [← length_unread _ lanes.slots, hheld.written_eq]
    refine hpushed.waits rfl ?_
    rw [List.getElem?_append_right (Nat.le_of_eq (length_lapped _ _ _ _)), length_lapped, Nat.sub_self]
    rfl
  refine ⟨((push event).onLanes lanes m).2, ?_, fun calls hcalls => waits_run hwell calls (fun call hcall => ?_) hwaits⟩
  · rw [onLanes, EventLanes.push, Access.run_bind, run_push_of_lt hheld hlt]
    rfl
  · exact EventLanes.sized_onLanes hsized (hcalls call hcall)

end LaneCall

namespace ControlEvent

/-- **The encodings of events agree.** A pair is decoded as an event exactly if it encodes it and the event is a flag or
a rate above zero; any other pair is given back in the error. What a text is read as, and what a foreign program stores,
is such an event, and both are stored by `EventLanes.push`. In a lane that has room, whatever its counters and its
entries are, the event is then behind all that is unread, and whatever calls follow, of this lane or of others that have
their size, it is not dropped: it waits until it is handed out by the pop that comes to it, or the lane is emptied, or
an entry comes into its slot. The last can happen only under one of the last `2 ^ 64 % slots` counters before the wrap,
and it is the entry so many places behind. -/
theorem encodings_agree (tag : UInt32) (value : Int64) (event : ControlEvent) :
    (decode tag value = .ok event ↔ event.encode = (tag, value) ∧ event.WellFormed) ∧
    ((¬∃ encoded : ControlEvent, encoded.encode = (tag, value) ∧ encoded.WellFormed) →
      decode tag value = .error (.malformedEvent tag value)) ∧
    (∀ text, parse text = .ok event → event.WellFormed) ∧
    (∀ client : Client,
      (∃ stored : ControlEvent, (stored.encode = (tag, value) ∧ stored.WellFormed) ∧
        Client.pushEvent (some client) tag value =
          (do let result ← client.handle.channel.events.push stored; return result.toOption.isSome)) ∨
      decode tag value = .error (.malformedEvent tag value) ∧ Client.pushEvent (some client) tag value = pure false) ∧
    (∀ (s t : SharedMemory) (segment : String) (channel : ChannelKind) (handle : ChannelHandle),
      Segment.attach s segment channel.index = (.ok handle, t) →
        Command.send s segment channel event = t.access handle.region.object (handle.channel.events.push event)) ∧
    ∀ (lanes : EventLanes) (m : Memory), event.FromOutside →
      (lanes.lane event.kind).Sized lanes.slots m → (lanes.lane event.kind).unreadCount m < lanes.slots →
        ∃ m', (lanes.push event).run m = (.ok (), m') ∧
          ∀ calls : List LaneCall, (∀ call ∈ calls, (lanes.lane call.kind).Sized lanes.slots m) →
            LaneCall.Settles lanes event (m.word64 (lanes.lane event.kind).base)
              ((lanes.lane event.kind).unreadCount m) calls m' := by
  refine ⟨decode_eq_ok_iff, decode_eq_error, fun _ => wellFormed_of_parse, fun client => ?_,
    fun s t segment channel handle h => by simp only [Command.send, h],
    fun lanes m houtside => LaneCall.settles_of_push houtside.wellFormed⟩
  rcases client.pushEvent_eq tag value with ⟨stored, hdecode, hpush⟩ | hnothing
  · exact .inl ⟨stored, decode_eq_ok_iff.1 hdecode, hpush⟩
  · exact .inr hnothing

/-- So a text that is sent to an empty lane is what the next pop gives. -/
theorem encodings_agree_bitrate :
    let lanes : EventLanes := ⟨0, 4⟩
    let m := (lanes.init.run .zeroed).2
    parse "bitrate=5" = .ok (.bitrate 5) ∧ ∃ m', (lanes.push (.bitrate 5)).run m = (.ok (), m') ∧
      ((LaneCall.pop .bitrate).onLanes lanes m').1 = .found (some (.bitrate 5)) := by
  intro lanes m
  have hparse : parse "bitrate=5" = .ok (.bitrate 5) := rfl
  have hheld : (lanes.lane .bitrate).Holds lanes.slots 0 [] m :=
    lanes.holds_init (by decide) (by decide) .zeroed .bitrate
  have hempty : (lanes.lane .bitrate).unreadCount m = 0 := hheld.unreadCount_eq
  obtain ⟨-, -, -, -, -, hlanes⟩ := encodings_agree 1 5 (.bitrate 5)
  have hroom : (lanes.lane .bitrate).unreadCount m < lanes.slots := by
    rw [hempty]
    decide
  obtain ⟨m', hpush, hcalls⟩ := hlanes lanes m (.inl ⟨_, hparse⟩) hheld.sized hroom
  refine ⟨hparse, m', hpush, ?_⟩
  have hcall : ∀ call ∈ [LaneCall.pop .bitrate], (lanes.lane call.kind).Sized lanes.slots m := fun _ h => by
    rw [List.mem_singleton.1 h]
    exact hheld.sized
  rcases hcalls _ hcall with ⟨ahead, -, hle⟩ | ⟨before, call, after, ahead, hsplit, -, hends⟩
  · -- One pop suffices, for nothing is in front.
    rw [kind, hempty] at hle
    exact absurd hle (Nat.not_succ_le_zero ahead)
  · cases before with
    | nil =>
      cases hsplit
      cases hends with
      | handedOut _ hreply => exact hreply
      | overwritten hcall => cases hcall
    | cons first before => exact absurd (congrArg List.length hsplit) (by simp)

/-- **The pop that comes to the slot of an event can give another**: in a lane of three slots whose counters are about
to wrap around, the next event goes into the same slot. -/
theorem waiting_event_overwritten :
    ¬∀ (lanes : EventLanes) (event : ControlEvent) (m : Memory) (later : List LaneCall), event.FromOutside →
      (lanes.lane event.kind).Sized lanes.slots m → (lanes.lane event.kind).unreadCount m < lanes.slots →
        let m' := (transcript (LaneCall.onLanes lanes) (.push event :: later) m).2
        m'.word64 (lanes.lane event.kind).readAt = m.word64 (lanes.lane event.kind).base →
          ((LaneCall.pop event.kind).onLanes lanes m').1 = .found (some event) := by
  intro hall
  let lanes : EventLanes := ⟨0, 3⟩
  let m := LaneTurn.startedAt lanes .bitrate 0xffffffffffffffff
  let five : EventOf .bitrate := ⟨bitrate 5, by decide⟩
  let seven : EventOf .bitrate := ⟨bitrate 7, by decide⟩
  have hheld : (lanes.lane .bitrate).Holds 3 0xffffffffffffffff [] m :=
    LaneTurn.holds_startedAt lanes (by decide) (by decide) .bitrate 0xffffffffffffffff
  have hempty : LaneTurn.Carries lanes m (0xffffffffffffffff, ([] : List (EventOf .bitrate))) := hheld
  have hcount : (lanes.lane .bitrate).unreadCount m = 0 := hheld.unreadCount_eq
  -- Behind the wrap the counter is zero, a multiple of three as the last one before it.
  have hboth := (LaneTurn.answers_as_ring [.push five, .push seven] hempty).2
  have hring : (transcript (LaneTurn.onRing lanes.slots) [.push five, .push seven]
      (0xffffffffffffffff, ([] : List (EventOf .bitrate)))).2 = (0xffffffffffffffff, [seven, seven]) := by decide
  rw [hring] at hboth
  have hpop := (LaneTurn.onLane_step .pop hboth).1
  have hroom : (lanes.lane .bitrate).unreadCount m < lanes.slots := by
    rw [hcount]
    decide
  have hfive := hall lanes (bitrate 5) m [.push (bitrate 7)] (.inr ⟨1, 5, rfl⟩) hheld.sized hroom
    (hboth.taken_eq.trans hheld.written_eq.symm)
  have hsame : bitrate 5 = bitrate 7 := Option.some.inj (LaneReply.found.inj (hfive.symm.trans hpop))
  exact absurd hsame (by decide)

end ControlEvent

end MediaChannels
