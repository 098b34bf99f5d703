import MediaChannels.Proofs.EventLanes.Footprint
import MediaChannels.Proofs.Transcript

/-!
# The event lanes are four bounded queues

Seen through their calls, the lanes in shared memory cannot be told from four lists of entries, one for each kind, none
of which ever grows beyond the number of slots.

* `LaneCall.onQueues`: what the calls do to the four lists.
* `represents_step`: whatever is called, the lanes go on holding the lists.
* `agree_lane_onLanes`, `Represents.agree_lane`: no call touches the lane of another kind.
* `outcomes_handedOut_sublist`: events are handed out at most once, in the order in which they were accepted.
* `lanes_refine_queues`: so the lanes answer every sequence of calls as the lists do.
-/

namespace MediaChannels

/-! ## Four queues -/

/-- The unread entries of every kind, oldest first. -/
abbrev EventQueues := ControlKind → List LaneEntry

/-- The queues with other entries for one kind. -/
def EventQueues.set (queues : EventQueues) (kind : ControlKind) (entries : List LaneEntry) : EventQueues :=
  fun k => if k = kind then entries else queues k

@[simp] theorem EventQueues.set_self (queues : EventQueues) (kind : ControlKind) (entries : List LaneEntry) :
    queues.set kind entries kind = entries := if_pos rfl

theorem EventQueues.set_of_ne (queues : EventQueues) {kind k : ControlKind} (entries : List LaneEntry) (h : k ≠ kind) :
    queues.set kind entries k = queues k := if_neg h

/-- What producers and consumers can ask of the lanes. An entry can also be put into a lane as it is, whatever it
holds. -/
inductive LaneCall where
  | push (event : ControlEvent)
  | enter (kind : ControlKind) (entry : LaneEntry)
  | pop (kind : ControlKind)
  | peek (kind : ControlKind)
  | latest (kind : ControlKind)
  | pending (kind : ControlKind)

/-- What they are told. -/
inductive LaneReply where
  | pushed (result : Except Error Unit)
  | entered (accepted : Bool)
  | found (event : Option ControlEvent)
  | counted (entries : Nat)

namespace LaneCall

/-- The kind whose lane is called. -/
def kind : LaneCall → ControlKind
  | push event => event.kind
  | enter kind _ | pop kind | peek kind | latest kind | pending kind => kind

/-- The call appends to the lane of a kind. -/
def appendsTo (k : ControlKind) : LaneCall → Bool
  | push event => event.kind = k
  | enter kind _ => kind = k
  | _ => false

open Lane in
/-- A call to queues of up to `slots` entries. -/
def onQueues (slots : Nat) : LaneCall → EventQueues → LaneReply × EventQueues
  | push event, q =>
    if slots ≤ (q event.kind).length then (.pushed (.error (.laneFull event.kind)), q)
    else (.pushed (.ok ()), q.set event.kind (q event.kind ++ [event.encode]))
  | enter kind entry, q =>
    if slots ≤ (q kind).length then (.entered false, q)
    else (.entered true, q.set kind (q kind ++ [entry]))
  | pop kind, q =>
    (.found ((fromEvent kind (q kind)).head?.bind (·.event? kind)), q.set kind (fromEvent kind (q kind)).tail)
  | peek kind, q =>
    (.found ((fromEvent kind (q kind)).head?.bind (·.event? kind)), q.set kind (fromEvent kind (q kind)))
  | latest kind, q => (.found (eventsOf kind (q kind)).getLast?, q.set kind [])
  | pending kind, q => (.counted (q kind).length, q)

/-- A call to the lanes in memory. -/
def onLanes (lanes : EventLanes) : LaneCall → Memory → LaneReply × Memory
  | push event, m =>
    let (result, m) := (lanes.push event).run m
    (.pushed result, m)
  | enter kind entry, m =>
    let (accepted, m) := ((lanes.lane kind).push entry.1 entry.2).run m
    (.entered accepted, m)
  | pop kind, m =>
    let (event, m) := (lanes.pop kind).run m
    (.found event, m)
  | peek kind, m =>
    let (event, m) := (lanes.peek kind).run m
    (.found event, m)
  | latest kind, m =>
    let (event, m) := (lanes.latest kind).run m
    (.found event, m)
  | pending kind, m =>
    let (count, m) := (lanes.pending kind).run m
    (.counted count.toNat, m)

end LaneCall

/-! ## Lanes beside one another -/

namespace EventLanes

variable {lanes : EventLanes} {m : Memory} {kind k : ControlKind} {taken : UInt64} {entries : List LaneEntry}

/-- Lanes of different kinds do not overlap. -/
theorem lane_disjoint (lanes : EventLanes) (h : k ≠ kind) :
    (lanes.lane k).base + Lane.size lanes.slots ≤ (lanes.lane kind).base ∨
      (lanes.lane kind).base + Lane.size lanes.slots ≤ (lanes.lane k).base := by
  have hne : k.lane ≠ kind.lane := by
    intro hl
    cases k <;> cases kind <;> first | exact h rfl | exact absurd hl (by decide)
  rcases Nat.lt_or_gt_of_ne hne with hlt | hgt
  · exact .inl (lanes.laneAt_add_stride_le hlt)
  · exact .inr (lanes.laneAt_add_stride_le hgt)

/-- A program that stores in the lane of one kind leaves the others as they are. -/
theorem agree_lane_of_storesIn {α : Type} {p : Access α}
    (hin : p.StoresIn (lanes.lane kind).base ((lanes.lane kind).base + Lane.size lanes.slots) m) (h : k ≠ kind) :
    Memory.Agree (lanes.lane k).base ((lanes.lane k).base + Lane.size lanes.slots) (p.run m).2 m :=
  Access.agree_run_of_storesIn hin (lanes.lane_disjoint h)

/-- **Lanes that were just set up are fresh**: clearing one does not reach into another. -/
theorem fresh_init (lanes : EventLanes) (hp : 0 < lanes.slots) (hl : lanes.slots < 2 ^ 64) (m : Memory)
    (kind : ControlKind) : (lanes.lane kind).Fresh lanes.slots (lanes.init.run m).2 := by
  have hself (kind : ControlKind) (m : Memory) := (lanes.lane kind).fresh_init hp hl m
  have hkeep {kind k : ControlKind} {m : Memory} (h : (lanes.lane kind).Fresh lanes.slots m) (hne : kind ≠ k) :
      (lanes.lane kind).Fresh lanes.slots (((lanes.lane k).init lanes.slots).run m).2 :=
    h.congr (agree_lane_of_storesIn ((lanes.lane k).init_storesIn lanes.slots m) hne)
  simp only [init, Access.run_bind]
  cases kind with
  | bitrate => exact hkeep (hkeep (hkeep (hself _ _) (by decide)) (by decide)) (by decide)
  | framerate => exact hkeep (hkeep (hself _ _) (by decide)) (by decide)
  | pointer => exact hkeep (hself _ _) (by decide)
  | idr => exact hself _ _

theorem holds_init (lanes : EventLanes) (hp : 0 < lanes.slots) (hl : lanes.slots < 2 ^ 64) (m : Memory)
    (kind : ControlKind) : (lanes.lane kind).Holds lanes.slots 0 [] (lanes.init.run m).2 :=
  (lanes.fresh_init hp hl m kind).holds

theorem init_storesIn (lanes : EventLanes) (m : Memory) :
    lanes.init.StoresIn lanes.base (lanes.base + size lanes.slots) m := by
  have hin (kind : ControlKind) (m : Memory) :
      ((lanes.lane kind).init lanes.slots).StoresIn lanes.base (lanes.base + size lanes.slots) m :=
    ((lanes.lane kind).init_storesIn lanes.slots m).mono (Nat.le_add_right _ _) (lanes.laneAt_add_stride_le_size kind)
  simp only [init, Access.storesIn_bind]
  exact ⟨hin _ _, hin _ _, hin _ _, hin _ _⟩

/-- Asking for the newest event of a lane empties it. -/
theorem run_latest (h : (lanes.lane kind).Holds lanes.slots taken entries m) :
    ((lanes.latest kind).run m).1 = (Lane.eventsOf kind entries).getLast? ∧
      (lanes.lane kind).Holds lanes.slots (taken + .ofNat entries.length) [] ((lanes.latest kind).run m).2 := by
  obtain ⟨hlast, hempty⟩ := Lane.run_lastAmong h (Nat.le_refl _) none
  rw [latest, Access.run_bind, h.run_pending, h.toNat_length]
  exact ⟨hlast.trans Option.or_none, hempty⟩

theorem latest_storesIn (lanes : EventLanes) (kind : ControlKind) (m : Memory) :
    (lanes.latest kind).StoresIn (lanes.lane kind).base ((lanes.lane kind).base + Lane.size lanes.slots) m := by
  rw [latest, Access.storesIn_bind]
  exact ⟨by simp [Lane.pending], Lane.lastAmong_storesIn _ _ _ _ _ _⟩

/-- Pushing an event pushes its entry. -/
theorem onLanes_push_snd (lanes : EventLanes) (event : ControlEvent) (m : Memory) :
    ((LaneCall.push event).onLanes lanes m).2 =
      (((lanes.lane event.kind).push event.kind.tag event.value).run m).2 := by
  simp only [LaneCall.onLanes, push, Access.run_bind]
  split <;> rfl

/-- A call works inside the lane of its kind and leaves the number of its slots alone, whatever the lane holds. -/
theorem exists_run_onLanes (call : LaneCall) (h : (lanes.lane call.kind).Sized lanes.slots m) :
    ∃ (α : Type) (p : Access α), (call.onLanes lanes m).2 = (p.run m).2 ∧
      p.Within (Access.Inside (lanes.lane call.kind).base ((lanes.lane call.kind).stop lanes.slots)) m ∧
      (lanes.lane call.kind).Sized lanes.slots (p.run m).2 := by
  cases call with
  | push event => exact ⟨_, _, onLanes_push_snd lanes event m, h.push_within _ _, h.push _ _⟩
  | enter kind entry => exact ⟨_, (lanes.lane kind).push entry.1 entry.2, rfl, h.push_within _ _, h.push _ _⟩
  | pop kind => exact ⟨_, lanes.pop kind, rfl, h.take_within kind true, h.take kind true⟩
  | peek kind => exact ⟨_, lanes.peek kind, rfl, h.take_within kind false, h.take kind false⟩
  | latest kind =>
    refine ⟨_, lanes.latest kind, rfl, ?_, ?_⟩
    · rw [latest, Access.within_bind]
      exact ⟨h.pending_within, h.lastAmong_within kind _ _⟩
    · rw [latest, Access.run_bind]
      exact h.lastAmong kind _ _
  | pending kind => exact ⟨_, lanes.pending kind, rfl, h.pending_within, h⟩

/-- A call leaves the lanes of other kinds as they are. -/
theorem agree_lane_onLanes {call : LaneCall} (h : (lanes.lane call.kind).Sized lanes.slots m) (hne : k ≠ call.kind) :
    Memory.Agree (lanes.lane k).base ((lanes.lane k).stop lanes.slots) (call.onLanes lanes m).2 m := by
  obtain ⟨α, p, hrun, hwithin, -⟩ := exists_run_onLanes call h
  rw [hrun]
  refine Access.agree_run_of_within hwithin fun start stop hinside => ?_
  rcases lanes.lane_disjoint hne with hbefore | hbehind
  · exact .inl (Nat.le_trans hbefore hinside.1)
  · exact .inr (Nat.le_trans hinside.2 hbehind)

/-- A call leaves the number of slots alone, in every lane. -/
theorem sized_onLanes {call : LaneCall} (hcall : (lanes.lane call.kind).Sized lanes.slots m)
    (h : (lanes.lane k).Sized lanes.slots m) : (lanes.lane k).Sized lanes.slots (call.onLanes lanes m).2 := by
  by_cases hk : k = call.kind
  · obtain ⟨α, p, hrun, -, hsized⟩ := exists_run_onLanes call hcall
    rw [hrun, hk]
    exact hsized
  · exact h.congr (agree_lane_onLanes hcall hk)

/-- Every lane holds its queue, and so few entries are still to come that its counters do not wrap around. -/
def Represents (lanes : EventLanes) (calls : List LaneCall) (m : Memory) (queues : EventQueues) : Prop :=
  ∀ kind, ∃ taken : UInt64, (lanes.lane kind).Holds lanes.slots taken (queues kind) m ∧
    taken.toNat + (queues kind).length + calls.countP (LaneCall.appendsTo kind) < 2 ^ 64

section Step

variable {call : LaneCall} {calls : List LaneCall} {queues : EventQueues}

theorem countP_le (k : ControlKind) (call : LaneCall) (calls : List LaneCall) :
    calls.countP (LaneCall.appendsTo k) ≤ (call :: calls).countP (LaneCall.appendsTo k) := by
  rw [List.countP_cons]
  exact Nat.le_add_right _ _

/-- A call that changes nothing. -/
theorem Represents.stay (h : lanes.Represents (call :: calls) m queues) : lanes.Represents calls m queues := by
  intro k
  obtain ⟨taken, hheld, hroom⟩ := h k
  have := countP_le k call calls
  exact ⟨taken, hheld, by omega⟩

/-- A program that works on the lane of one kind changes the queue of that kind. -/
theorem Represents.update {α : Type} {p : Access α} (h : lanes.Represents (call :: calls) m queues)
    (hin : p.StoresIn (lanes.lane kind).base ((lanes.lane kind).base + Lane.size lanes.slots) m)
    (hheld : (lanes.lane kind).Holds lanes.slots taken entries (p.run m).2)
    (hroom : taken.toNat + entries.length + calls.countP (LaneCall.appendsTo kind) < 2 ^ 64) :
    lanes.Represents calls (p.run m).2 (queues.set kind entries) := by
  intro k
  by_cases hk : k = kind
  · rw [hk, EventQueues.set_self]
    exact ⟨taken, hheld, hroom⟩
  · obtain ⟨taken', hheld', hroom'⟩ := h.stay k
    rw [EventQueues.set_of_ne _ _ hk]
    exact ⟨taken', hheld'.congr (agree_lane_of_storesIn hin hk), hroom'⟩

/-- Appending to a lane fails if and only if its queue is full. -/
theorem Represents.append (h : lanes.Represents (call :: calls) m queues) (hcall : call.appendsTo kind) (tag : UInt32)
    (value : Int64) :
    (lanes.slots ≤ (queues kind).length → ((lanes.lane kind).push tag value).run m = (false, m)) ∧
      (¬lanes.slots ≤ (queues kind).length → (((lanes.lane kind).push tag value).run m).1 = true ∧
        lanes.Represents calls (((lanes.lane kind).push tag value).run m).2
          (queues.set kind (queues kind ++ [(tag, value)]))) := by
  obtain ⟨taken, hheld, hroom⟩ := h kind
  rw [List.countP_cons_of_pos hcall] at hroom
  refine ⟨Lane.run_push_of_full hheld, fun hlt => ?_⟩
  rw [Nat.not_le] at hlt
  refine ⟨by rw [Lane.run_push_of_lt hheld hlt], h.update (Lane.push_storesIn hheld tag value) (hheld.push hlt ?_) ?_⟩
  · exact fun j hj => Lane.place_ne_of_lt (by omega) hj hlt
  · rw [List.length_append, List.length_singleton]
    omega

/-- Looking for the oldest event drops what the queue drops. -/
theorem Represents.take (h : lanes.Represents (call :: calls) m queues) (kind : ControlKind) (consume : Bool) :
    (((lanes.lane kind).take kind consume).run m).1 =
        (Lane.fromEvent kind (queues kind)).head?.bind (·.event? kind) ∧
      lanes.Represents calls (((lanes.lane kind).take kind consume).run m).2
        (queues.set kind (Lane.leftover kind consume (queues kind))) := by
  obtain ⟨taken, hheld, hroom⟩ := h kind
  have hle := Lane.length_leftover_le kind consume (queues kind)
  have hc := countP_le kind call calls
  refine ⟨Lane.run_take hheld kind consume, h.update (Lane.take_storesIn _ _ _ _ _) (hheld.take kind consume) ?_⟩
  rw [UInt64.toNat_add, UInt64.toNat_ofNat', Nat.mod_eq_of_lt (a := (queues kind).length - _) (by omega),
    Nat.mod_eq_of_lt (by omega)]
  omega

/-- Asking for the newest event empties the queue. -/
theorem Represents.latest (h : lanes.Represents (call :: calls) m queues) (kind : ControlKind) :
    ((lanes.latest kind).run m).1 = (Lane.eventsOf kind (queues kind)).getLast? ∧
      lanes.Represents calls ((lanes.latest kind).run m).2 (queues.set kind []) := by
  obtain ⟨taken, hheld, hroom⟩ := h kind
  have hc := countP_le kind call calls
  obtain ⟨hlast, hempty⟩ := run_latest hheld
  refine ⟨hlast, h.update (lanes.latest_storesIn kind m) hempty ?_⟩
  rw [UInt64.toNat_add, UInt64.toNat_ofNat', Nat.mod_eq_of_lt (a := (queues kind).length) (by omega),
    Nat.mod_eq_of_lt (by omega), List.length_nil]
  omega

/-- **Whatever is called, lanes and queues answer alike, and the lanes go on holding the queues.** -/
theorem represents_step (lanes : EventLanes) (call : LaneCall) (calls : List LaneCall) (m : Memory)
    (queues : EventQueues) (h : lanes.Represents (call :: calls) m queues) :
    (call.onLanes lanes m).1 = (call.onQueues lanes.slots queues).1 ∧
      lanes.Represents calls (call.onLanes lanes m).2 (call.onQueues lanes.slots queues).2 := by
  cases call with
  | push event =>
    obtain ⟨hfull, hroom⟩ := h.append (decide_eq_true rfl) event.kind.tag event.value
    simp only [LaneCall.onLanes, LaneCall.onQueues, EventLanes.push, Access.run_bind]
    by_cases hf : lanes.slots ≤ (queues event.kind).length
    · rw [if_pos hf, hfull hf]
      exact ⟨rfl, h.stay⟩
    · obtain ⟨htrue, hnext⟩ := hroom hf
      rw [if_neg hf, htrue]
      exact ⟨rfl, hnext⟩
  | enter kind entry =>
    obtain ⟨hfull, hroom⟩ := h.append (decide_eq_true rfl) entry.1 entry.2
    simp only [LaneCall.onLanes, LaneCall.onQueues]
    by_cases hf : lanes.slots ≤ (queues kind).length
    · rw [if_pos hf, hfull hf]
      exact ⟨rfl, h.stay⟩
    · obtain ⟨htrue, hnext⟩ := hroom hf
      rw [if_neg hf, htrue]
      exact ⟨rfl, hnext⟩
  | pop kind =>
    obtain ⟨hfound, hnext⟩ := h.take kind true
    exact ⟨congrArg LaneReply.found hfound, hnext⟩
  | peek kind =>
    obtain ⟨hfound, hnext⟩ := h.take kind false
    exact ⟨congrArg LaneReply.found hfound, hnext⟩
  | latest kind =>
    obtain ⟨hfound, hnext⟩ := h.latest kind
    exact ⟨congrArg LaneReply.found hfound, hnext⟩
  | pending kind =>
    obtain ⟨taken, hheld, hroom⟩ := h kind
    rw [LaneCall.onLanes, EventLanes.pending, hheld.run_pending]
    exact ⟨congrArg LaneReply.counted hheld.toNat_length, h.stay⟩

theorem Represents.agree_lane (h : lanes.Represents calls m queues) (call : LaneCall) (hne : k ≠ call.kind) :
    Memory.Agree (lanes.lane k).base ((lanes.lane k).base + Lane.size lanes.slots) (call.onLanes lanes m).2 m := by
  obtain ⟨taken, hheld, -⟩ := h call.kind
  exact agree_lane_onLanes hheld.sized hne

end Step

end EventLanes

/-! ## What is handed out -/

namespace LaneCall

/-- The events of a kind that a call takes out of its lane and hands out. -/
def handedOut (k : ControlKind) : LaneCall → LaneReply → List ControlEvent
  | pop kind, .found event | latest kind, .found event => if kind = k then event.toList else []
  | _, _ => []

/-- The well-formed events of a kind that a call appends. -/
def accepted (k : ControlKind) : LaneCall → LaneReply → List ControlEvent
  | push event, .pushed (.ok _) => if event.kind = k ∧ event.WellFormed then [event] else []
  | enter kind entry, .entered true => if kind = k then (entry.event? kind).toList else []
  | _, _ => []

/-- What all calls together do to the events of a kind, by their replies. -/
def outcomes (f : LaneCall → LaneReply → List ControlEvent) (calls : List LaneCall) (replies : List LaneReply) :
    List ControlEvent := (List.zipWith f calls replies).flatten

open Lane

variable {queues : EventQueues} (k : ControlKind) (slots : Nat)

theorem eventsOf_append (entries : List LaneEntry) (entry : LaneEntry) :
    eventsOf k (entries ++ [entry]) = eventsOf k entries ++ (entry.event? k).toList := by
  rw [eventsOf, List.filterMap_append]
  cases he : entry.event? k <;> simp [eventsOf, he]

theorem found_append_eventsOf_tail (entries : List LaneEntry) :
    ((fromEvent k entries).head?.bind (·.event? k)).toList ++ eventsOf k (fromEvent k entries).tail =
      eventsOf k entries := by
  have hevents := eventsOf_fromEvent k entries
  rw [← hevents]
  cases hf : fromEvent k entries with
  | nil => rfl
  | cons entry rest =>
    obtain ⟨event, he⟩ := exists_event_of_fromEvent hf
    simp [eventsOf, he]

/-- The last of some events is one of them. -/
theorem getLast?_toList_sublist (events : List ControlEvent) : events.getLast?.toList.Sublist events := by
  cases hl : events.getLast? with
  | none => exact List.nil_sublist _
  | some event =>
    obtain ⟨before, rfl⟩ := List.getLast?_eq_some_iff.1 hl
    exact List.sublist_append_right _ _

/-- **What a call hands out, followed by what it leaves, is part of what was there and what it appends.** -/
theorem handedOut_step (call : LaneCall) (queues : EventQueues) :
    (call.handedOut k (call.onQueues slots queues).1 ++ eventsOf k ((call.onQueues slots queues).2 k)).Sublist
      (eventsOf k (queues k) ++ call.accepted k (call.onQueues slots queues).1) := by
  by_cases hk : call.kind = k
  · subst hk
    cases call with
    | push event =>
      simp only [onQueues, LaneCall.kind]
      split
      · exact List.sublist_append_left _ _
      · dsimp only [handedOut, accepted]
        rw [EventQueues.set_self, eventsOf_append, LaneEntry.event?_encode]
        by_cases hw : event.WellFormed <;> simp [hw]
    | enter kind entry =>
      simp only [onQueues, LaneCall.kind]
      split
      · exact List.sublist_append_left _ _
      · dsimp only [handedOut, accepted]
        rw [EventQueues.set_self, eventsOf_append, if_pos rfl]
        exact List.Sublist.refl _
    | pop kind =>
      simp only [onQueues, LaneCall.kind, EventQueues.set_self, handedOut, if_true, found_append_eventsOf_tail]
      exact List.sublist_append_left _ _
    | peek kind =>
      simp only [onQueues, LaneCall.kind, EventQueues.set_self, handedOut, List.nil_append, eventsOf_fromEvent]
      exact List.sublist_append_left _ _
    | latest kind =>
      simp only [onQueues, LaneCall.kind, EventQueues.set_self, handedOut, if_true]
      exact (getLast?_toList_sublist _).append (List.nil_sublist _)
    | pending kind => exact List.sublist_append_left _ _
  · -- The call is about another kind, so it does nothing to the events of this one.
    have hne : k ≠ call.kind := Ne.symm hk
    cases call with
    | push event =>
      simp only [LaneCall.kind] at hk hne
      simp only [onQueues]
      split <;> simp [handedOut, accepted, hk, EventQueues.set_of_ne _ _ hne]
    | enter kind entry =>
      simp only [LaneCall.kind] at hk hne
      simp only [onQueues]
      split <;> simp [handedOut, accepted, hk, EventQueues.set_of_ne _ _ hne]
    | pop kind | peek kind | latest kind =>
      simp only [LaneCall.kind] at hk hne
      simp [onQueues, handedOut, accepted, hk, EventQueues.set_of_ne _ _ hne]
    | pending kind => exact List.sublist_append_left _ _

/-- **Events are handed out at most once, in the order in which they were accepted.** -/
theorem outcomes_handedOut_sublist (calls : List LaneCall) (queues : EventQueues) :
    (outcomes (handedOut k) calls (transcript (onQueues slots) calls queues).1).Sublist
      (eventsOf k (queues k) ++ outcomes (accepted k) calls (transcript (onQueues slots) calls queues).1) := by
  induction calls generalizing queues with
  | nil => exact List.nil_sublist _
  | cons call calls ih =>
    have hstep := handedOut_step k slots call queues
    have hrest := ih (call.onQueues slots queues).2
    simp only [transcript, outcomes, List.zipWith_cons_cons, List.flatten_cons] at hrest ⊢
    refine ((List.Sublist.refl _).append hrest).trans ?_
    rw [← List.append_assoc, ← List.append_assoc]
    exact hstep.append (List.Sublist.refl _)

end LaneCall

/-! ## Every sequence of calls -/

namespace EventLanes

/-- **Lanes that were just set up answer every sequence of calls as four bounded queues do**, whatever the memory held
before. Then each lane holds its queue, another call touches no lane but that of its kind, and the events handed out so
far are among those accepted, in their order. -/
theorem lanes_refine_queues (lanes : EventLanes) (hp : 0 < lanes.slots) (hl : lanes.slots < 2 ^ 64) (m : Memory)
    (calls : List LaneCall) (h : ∀ kind, calls.countP (LaneCall.appendsTo kind) < 2 ^ 64) :
    let real := transcript (LaneCall.onLanes lanes) calls (lanes.init.run m).2
    let ideal := transcript (LaneCall.onQueues lanes.slots) calls (fun _ => [])
    real.1 = ideal.1 ∧
      (∀ kind, ∃ taken, (lanes.lane kind).Holds lanes.slots taken (ideal.2 kind) real.2) ∧
      (∀ (call : LaneCall) (kind : ControlKind), kind ≠ call.kind →
        Memory.Agree (lanes.lane kind).base ((lanes.lane kind).base + Lane.size lanes.slots)
          (call.onLanes lanes real.2).2 real.2) ∧
      ∀ kind, (LaneCall.outcomes (LaneCall.handedOut kind) calls real.1).Sublist
        (LaneCall.outcomes (LaneCall.accepted kind) calls real.1) := by
  intro real ideal
  have hstart : lanes.Represents calls (lanes.init.run m).2 (fun _ => []) := by
    intro kind
    refine ⟨0, lanes.holds_init hp hl m kind, ?_⟩
    rw [UInt64.toNat_zero, List.length_nil, Nat.zero_add]
    exact h kind
  obtain ⟨hreplies, hlast⟩ := transcript_eq_of_simulation (R := lanes.Represents) lanes.represents_step calls hstart
  refine ⟨hreplies, fun kind => ?_, fun call kind hne => ?_, fun kind => ?_⟩
  · obtain ⟨taken, hheld, -⟩ := hlast kind
    exact ⟨taken, hheld⟩
  · exact hlast.agree_lane call hne
  · have hsub := LaneCall.outcomes_handedOut_sublist kind lanes.slots calls (fun _ => [])
    rw [show real.1 = ideal.1 from hreplies]
    exact hsub

/-- Looking at a full lane drops the malformed entry at its head, which makes room. -/
theorem lanes_refine_queues_full :
    let calls : List LaneCall := [.enter .bitrate (9, 0), .push (.bitrate 7), .push (.bitrate 8), .pending .bitrate,
      .peek .bitrate, .push (.bitrate 8), .pop .idr, .latest .bitrate, .pending .bitrate]
    0 < 2 ∧ 2 < 2 ^ 64 ∧ (∀ kind, calls.countP (LaneCall.appendsTo kind) < 2 ^ 64) ∧
      (transcript (LaneCall.onLanes ⟨0, 2⟩) calls ((EventLanes.init ⟨0, 2⟩).run .zeroed).2).1 =
        [.entered true, .pushed (.ok ()), .pushed (.error (.laneFull .bitrate)), .counted 2,
          .found (some (.bitrate 7)), .pushed (.ok ()), .found none, .found (some (.bitrate 8)), .counted 0] :=
  have hcount := fun kind => by cases kind <;> decide
  ⟨by decide, by decide, hcount, (lanes_refine_queues ⟨0, 2⟩ (by decide) (by decide) .zeroed _ hcount).1⟩

end EventLanes

end MediaChannels
