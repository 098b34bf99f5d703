import MediaChannels.Proofs.EventLanes.Queues
import MediaChannels.Proofs.Forward.Mailboxes

/-!
# Bridging control events

A forwarder empties the four event lanes of its channel and raises, of every kind, the newest event in the session's
mailbox. Whatever stands before, between and behind the events makes no difference.

* `EventLanes.Hold`: every lane holds a list of entries; `Hold.latest`: asking for the newest event of a kind.
* `Forwarder.bridge_spec`: bridging one kind; `Forwarder.bridgeAll_spec`: bridging some kinds, one after the other.
* `newest_events_bridged`: what bridging all kinds leaves in lanes and mailbox, and the number that it gives.
* `PushLoop.run_bridging`: a push loop that nobody disturbs bridges so.
-/

namespace MediaChannels

theorem ControlKind.kind_event (kind : ControlKind) (value : Int64) : (kind.event value).kind = kind := by
  cases kind <;> rfl

/-- The events in the lane of a kind are of this kind. -/
theorem Lane.kind_of_mem_eventsOf {kind : ControlKind} {entries : List LaneEntry} {event : ControlEvent}
    (h : event ∈ eventsOf kind entries) : event.kind = kind := by
  obtain ⟨entry, -, hentry⟩ := List.mem_filterMap.1 h
  rw [LaneEntry.event?] at hentry
  split at hentry
  · cases hentry
    exact kind.kind_event entry.2
  · cases hentry

theorem Lane.eventsOf_eq_map (kind : ControlKind) (entries : List LaneEntry) :
    eventsOf kind entries =
      (entries.filter fun entry => entry.WellFormed kind).map fun entry => kind.event entry.2 := by
  induction entries with
  | nil => rfl
  | cons entry rest ih =>
    by_cases hentry : entry.WellFormed kind
    · rw [List.filter_cons_of_pos (by simpa using hentry), List.map_cons, ← ih, eventsOf,
        List.filterMap_cons_some (by rw [LaneEntry.event?, if_pos hentry])]
      rfl
    · rw [List.filter_cons_of_neg (by simpa using hentry), ← ih, eventsOf,
        List.filterMap_cons_none (by rw [LaneEntry.event?, if_neg hentry])]
      rfl

/-- The queues without the entries of some kinds. -/
def EventQueues.clear (queues : EventQueues) (kinds : List ControlKind) : EventQueues :=
  fun kind => if kind ∈ kinds then [] else queues kind

theorem EventQueues.clear_cons (queues : EventQueues) (kind : ControlKind) (rest : List ControlKind) :
    queues.clear (kind :: rest) = (queues.set kind []).clear rest := by
  funext k
  simp only [clear, set, List.mem_cons]
  by_cases hk : k = kind <;> simp [hk]

namespace EventLanes

variable {lanes : EventLanes} {queues : EventQueues} {m : Memory}

/-- Every lane holds the entries of its kind. -/
def Hold (lanes : EventLanes) (queues : EventQueues) (m : Memory) : Prop :=
  ∀ kind, ∃ taken : UInt64, (lanes.lane kind).Holds lanes.slots taken (queues kind) m

/-- Asking for the newest event of a kind empties its lane and leaves the others as they are. -/
theorem Hold.latest (h : lanes.Hold queues m) (kind : ControlKind) :
    ((lanes.latest kind).run m).1 = (Lane.eventsOf kind (queues kind)).getLast? ∧
      lanes.Hold (queues.set kind []) ((lanes.latest kind).run m).2 := by
  obtain ⟨taken, hheld⟩ := h kind
  obtain ⟨hlast, hempty⟩ := run_latest hheld
  refine ⟨hlast, fun k => ?_⟩
  by_cases hk : k = kind
  · subst hk
    rw [EventQueues.set_self]
    exact ⟨_, hempty⟩
  · obtain ⟨taken', hheld'⟩ := h k
    rw [EventQueues.set_of_ne _ _ hk]
    exact ⟨taken', hheld'.congr (agree_lane_of_storesIn (lanes.latest_storesIn kind m) hk)⟩

end EventLanes

namespace Forwarder

variable {f : Forwarder} {queues : EventQueues} {env : Environment}

/-! ## One kind -/

theorem bridge_fst (f : Forwarder) (kind : ControlKind) (env : Environment) :
    (f.bridge kind env).1 = ((f.channel.events.latest kind).run env.memory).1.isSome := by
  simp only [bridge, Environment.access]
  cases ((f.channel.events.latest kind).run env.memory).1 <;> rfl

theorem memory_bridge (f : Forwarder) (kind : ControlKind) (env : Environment) :
    (f.bridge kind env).2.memory = ((f.channel.events.latest kind).run env.memory).2 := by
  simp only [bridge, Environment.access]
  cases ((f.channel.events.latest kind).run env.memory).1 <;> rfl

/-- The newest event, if there is one, is raised. -/
theorem office_bridge (f : Forwarder) (kind : ControlKind) (env : Environment) :
    (f.bridge kind env).2.office =
      ((f.channel.events.latest kind).run env.memory).1.elim env.office (f.raiseEvent env.office) := by
  simp only [bridge, Environment.access]
  cases ((f.channel.events.latest kind).run env.memory).1 <;> rfl

theorem orderly_bridge (h : env.office.Orderly) (kind : ControlKind) : (f.bridge kind env).2.office.Orderly := by
  rw [office_bridge]
  cases ((f.channel.events.latest kind).run env.memory).1 with
  | none => exact h
  | some event => exact orderly_raiseEvent h event

theorem extends_bridge (f : Forwarder) (kind : ControlKind) (env : Environment) :
    env.office.Extends (f.bridge kind env).2.office := by
  rw [office_bridge]
  cases ((f.channel.events.latest kind).run env.memory).1 with
  | none => exact .refl _
  | some event => exact extends_raiseEvent _ event

theorem isStopped_bridge (h : env.office.Orderly) (kind : ControlKind) :
    f.isStopped (f.bridge kind env).2.office = f.isStopped env.office := by
  rw [office_bridge]
  cases ((f.channel.events.latest kind).run env.memory).1 with
  | none => rfl
  | some event => exact isStopped_raiseEvent h event

theorem incoming_bridge (f : Forwarder) (kind : ControlKind) (env : Environment) :
    f.incoming (f.bridge kind env).2.office = f.incoming env.office := by
  rw [office_bridge]
  cases ((f.channel.events.latest kind).run env.memory).1 with
  | none => rfl
  | some event => exact incoming_raiseEvent _ event

/-- Bridging one kind: its lane is emptied, and its newest event is the session's. -/
theorem bridge_spec (hlanes : f.channel.events.Hold queues env.memory) (ho : env.office.Orderly)
    (hm : f.session < env.office.mailboxes.size) (kind : ControlKind) :
    (f.bridge kind env).1 = !(Lane.eventsOf kind (queues kind)).isEmpty ∧
      f.channel.events.Hold (queues.set kind []) (f.bridge kind env).2.memory ∧
      ∀ k, f.sessionEvent (f.bridge kind env).2.office k =
        if k = kind then (Lane.eventsOf kind (queues kind)).getLast?.or (f.sessionEvent env.office k)
        else f.sessionEvent env.office k := by
  obtain ⟨hlast, hheld⟩ := hlanes.latest kind
  refine ⟨?_, by rwa [memory_bridge], fun k => ?_⟩
  · rw [bridge_fst, hlast]
    cases Lane.eventsOf kind (queues kind) <;> simp
  · rw [office_bridge, hlast]
    cases hnewest : (Lane.eventsOf kind (queues kind)).getLast? with
    | none => simp
    | some event =>
      have hkind : event.kind = kind := Lane.kind_of_mem_eventsOf (List.mem_of_getLast? hnewest)
      rw [Option.elim_some, sessionEvent_raiseEvent ho hm, hkind, Option.some_or]

/-! ## All kinds -/

/-- **Bridging some kinds, one after the other**: their lanes are emptied, their newest events are the session's, and
the kinds that had one are counted. -/
theorem bridgeAll_spec (hlanes : f.channel.events.Hold queues env.memory) (ho : env.office.Orderly)
    (hm : f.session < env.office.mailboxes.size) {kinds : List ControlKind} (hnodup : kinds.Nodup) :
    (f.bridgeAll kinds env).1 = kinds.countP (fun kind => !(Lane.eventsOf kind (queues kind)).isEmpty) ∧
      f.channel.events.Hold (queues.clear kinds) (f.bridgeAll kinds env).2.memory ∧
      ∀ k, f.sessionEvent (f.bridgeAll kinds env).2.office k =
        if k ∈ kinds then (Lane.eventsOf k (queues k)).getLast?.or (f.sessionEvent env.office k)
        else f.sessionEvent env.office k := by
  induction kinds generalizing queues env with
  | nil =>
    exact ⟨rfl, hlanes, fun k => (if_neg List.not_mem_nil).symm⟩
  | cons kind rest ih =>
    obtain ⟨hnew, hrest⟩ := List.nodup_cons.1 hnodup
    obtain ⟨hone, hheld, hevents⟩ := bridge_spec hlanes ho hm kind
    have hm' := Nat.lt_of_lt_of_le hm (extends_bridge f kind env).size_le
    obtain ⟨hcount, hheld', hevents'⟩ := ih hheld (orderly_bridge ho kind) hm' hrest
    -- The lanes of the kinds to come are as they were.
    have hsame : ∀ k ∈ rest, queues.set kind [] k = queues k :=
      fun k hk => EventQueues.set_of_ne _ _ fun he => hnew (he ▸ hk)
    rw [bridgeAll_cons]
    refine ⟨?_, by rwa [EventQueues.clear_cons], fun k => ?_⟩
    · have hcongr : rest.countP (fun k => !(Lane.eventsOf k (queues.set kind [] k)).isEmpty) =
          rest.countP (fun k => !(Lane.eventsOf k (queues k)).isEmpty) :=
        List.countP_congr fun k hk => by rw [hsame k hk]
      simp only [hone, hcount, hcongr, List.countP_cons]
      cases (Lane.eventsOf kind (queues kind)).isEmpty <;> simp [Nat.add_comm]
    · rw [hevents', hevents]
      simp only [List.mem_cons]
      by_cases hkind : k = kind
      · subst hkind
        simp only [if_neg hnew, if_true, true_or]
      · simp only [hkind, if_false, false_or]
        split
        · next hk => rw [hsame k hk]
        · rfl

/-- **A forwarder bridges the newest event of every kind.** Whatever the lanes of its channel and the latches of its
session's mailbox hold, bridging all kinds

* leaves every lane empty;
* leaves in the session's latch of a kind the event of the last well-formed entry in the lane of the kind, or what it
  held before if there was none;
* gives the number of kinds whose lanes held a well-formed entry. -/
theorem newest_events_bridged
    (hlanes : ∀ kind, ∃ taken, (f.channel.events.lane kind).Holds f.channel.events.slots taken (queues kind) env.memory)
    (ho : env.office.Orderly) (hm : f.session < env.office.mailboxes.size) :
    let bridged := f.bridgeAll ControlKind.all env
    (∀ kind, ∃ taken, (f.channel.events.lane kind).Holds f.channel.events.slots taken [] bridged.2.memory) ∧
      (∀ kind, f.sessionEvent bridged.2.office kind =
        match ((queues kind).filter fun entry => entry.WellFormed kind).getLast? with
        | some entry => some (kind.event entry.2)
        | none => f.sessionEvent env.office kind) ∧
      bridged.1 = ControlKind.all.countP fun kind => (queues kind).any fun entry => entry.WellFormed kind := by
  intro bridged
  obtain ⟨hcount, hheld, hevents⟩ := bridgeAll_spec hlanes ho hm (by decide : ControlKind.all.Nodup)
  refine ⟨fun kind => ?_, fun kind => ?_, hcount.trans (List.countP_congr fun kind _ => ?_)⟩
  · obtain ⟨taken, hkind⟩ := hheld kind
    rw [EventQueues.clear, if_pos kind.mem_all] at hkind
    exact ⟨taken, hkind⟩
  · rw [hevents, if_pos kind.mem_all, Lane.eventsOf_eq_map, List.getLast?_map]
    cases ((queues kind).filter fun entry => entry.WellFormed kind).getLast? <;> rfl
  · rw [Lane.eventsOf_eq_map]
    simp

/-- Malformed entries behind an event do not hide it, and a lane of malformed entries raises nothing. -/
theorem newest_events_bridged_mixed :
    let f : Forwarder :=
      { channel := .ofLayout .video0 (.of { queueSize := 1, slotSize := 1, eventSlots := 4 }) 4
        process := 0, session := 0 }
    let calls : List LaneCall := [.enter .bitrate (9, 0), .push (.bitrate 7), .enter .bitrate (1, -3),
      .push (.idr true), .push (.idr false), .enter .framerate (2, 0)]
    let queues : EventQueues := (transcript (LaneCall.onQueues 4) calls fun _ => []).2
    let office := (Office.addMailbox .empty).2.post 0 .number MailKey.framerate.text 30
    let memory := (transcript (LaneCall.onLanes f.channel.events) calls (f.channel.events.init.run .zeroed).2).2
    let env : Environment := { memory, office }
    (∀ kind, ∃ taken, (f.channel.events.lane kind).Holds f.channel.events.slots taken (queues kind) env.memory) ∧
      env.office.Orderly ∧ f.session < env.office.mailboxes.size ∧
      let bridged := f.bridgeAll ControlKind.all env
      bridged.1 = 2 ∧ ControlKind.all.map (f.sessionEvent bridged.2.office) =
        [some (.bitrate 7), some (.framerate 30), none, some (.idr false)] := by
  intro f calls queues office memory env
  have hlanes : ∀ kind, ∃ taken,
      (f.channel.events.lane kind).Holds f.channel.events.slots taken (queues kind) env.memory := by
    intro kind
    have hstart : f.channel.events.Represents calls (f.channel.events.init.run .zeroed).2 (fun _ => []) :=
      fun kind => ⟨0, f.channel.events.holds_init (by decide) (by decide) .zeroed kind, by cases kind <;> decide⟩
    obtain ⟨-, hlast⟩ := transcript_eq_of_simulation (R := f.channel.events.Represents)
      f.channel.events.represents_step calls hstart
    obtain ⟨taken, hheld, -⟩ := hlast kind
    exact ⟨taken, hheld⟩
  have ho : env.office.Orderly := Office.orderly_empty.addMailbox.post _ _ _ _
  have hm : f.session < env.office.mailboxes.size := by decide
  obtain ⟨-, hevents, hcount⟩ := newest_events_bridged hlanes ho hm
  refine ⟨hlanes, ho, hm, hcount.trans (by decide), ?_⟩
  rw [funext hevents]
  decide

end Forwarder

namespace PushLoop

/-- A push loop that nobody disturbs bridges all kinds that it still has to bridge, and counts the events. -/
theorem run_bridging (f : Forwarder) (kinds : List ControlKind) (stats : ForwardStats) (env : Environment) :
    run f kinds.length { phase := .bridge kinds, stats } env =
      ({ phase := .bridge [], stats := { stats with events := stats.events + (f.bridgeAll kinds env).1 } },
        (f.bridgeAll kinds env).2) := by
  induction kinds generalizing stats env with
  | nil => rfl
  | cons kind rest ih =>
    have hstep : step f { phase := .bridge (kind :: rest), stats } env =
        ({ phase := .bridge rest, stats := { stats with events := stats.events + (f.bridge kind env).1.toNat } },
          (f.bridge kind env).2) := rfl
    rw [List.length_cons, run, if_neg (by simp [isPaused]), hstep]
    dsimp only
    rw [ih, Forwarder.bridgeAll_cons]
    simp only [Nat.add_assoc]

end PushLoop

end MediaChannels
