import MediaChannels.Proofs.Command.Operands
import MediaChannels.Proofs.Segment.AttachErrors
import MediaChannels.Proofs.Segment.Used

/-!
# One event from the command line

A command line that is to send an event names a segment, a channel and the event. Two texts are read, the header of the
segment is checked, and the lane of the event has to have room; the code with which the process ends says whether all of
this has succeeded.

* `SignalLine.Sends`: a command line that can be obeyed.
* `SignalLine.Pushed`, `SignalLine.Delivered`: what happens then.
* `SignalLine.Outcome`, `outcome`: the two ends to which a command line can come.
* `Outcome.exits`, `Sends.delivered`: the code tells them apart.
-/

namespace MediaChannels

namespace SignalLine

variable {line : SignalLine} {files : String → Except SystemError (List UInt8)} {m : Machine} {kind : ChannelKind}
  {event : ControlEvent} {handle : ChannelHandle} {s t : SharedMemory} {code : Option Nat}

/-- A command line can be obeyed: it names a channel and an event, somebody can attach to that channel of the segment,
and the lane of the event has room. -/
structure Sends (line : SignalLine) (s : SharedMemory) (kind : ChannelKind) (event : ControlEvent)
    (handle : ChannelHandle) : Prop where
  channel_eq : ChannelKind.parse line.channel = .ok kind
  event_eq : ControlEvent.parse line.event = .ok event
  attached : (Segment.attach s line.segment kind.index).1 = .ok handle
  room : (handle.channel.events.lane event.kind).unreadCount (s.object handle.region.object).memory <
    handle.channel.events.slots

/-- A command line names its channel, its event and its segment once and for all. -/
theorem Sends.unique {kind' : ChannelKind} {event' : ControlEvent} {handle' : ChannelHandle}
    (h : line.Sends s kind event handle) (h' : line.Sends s kind' event' handle') :
    kind' = kind ∧ event' = event ∧ handle' = handle := by
  obtain rfl : kind' = kind := Except.ok.inj (h'.channel_eq.symm.trans h.channel_eq)
  exact ⟨rfl, Except.ok.inj (h'.event_eq.symm.trans h.event_eq), Except.ok.inj (h'.attached.symm.trans h.attached)⟩

/-- An event was pushed into a lane of an object, and that is all that was done. -/
structure Pushed (handle : ChannelHandle) (event : ControlEvent) (s t : SharedMemory) : Prop where
  names_eq : t.names = s.names
  size_eq : t.objects.size = s.objects.size
  object_eq : t.object handle.region.object =
    { s.object handle.region.object with
      memory := (((ChannelCall.pushEvent event).perform handle).run (s.object handle.region.object).memory).2 }
  others : ∀ number, number ≠ handle.region.object → t.object number = s.object number

/-- An event has come behind all that is unread in its lane, and nothing else has changed: no name, no other object, and
no byte of the segment outside of the lane. What is unread there is kept if the number of slots divides `2 ^ 64` or the
counters of the lane have not come to that number. -/
structure Delivered (handle : ChannelHandle) (event : ControlEvent) (s t : SharedMemory) : Prop
    extends Pushed handle event s t where
  appended : (handle.channel.events.lane event.kind).Appended handle.channel.events.slots event.encode
    (s.object handle.region.object).memory (t.object handle.region.object).memory
  unread_eq :
    let lane := handle.channel.events.lane event.kind
    let start := (s.object handle.region.object).memory
    handle.channel.events.slots ∣ 2 ^ 64 ∨ (start.word64 lane.readAt).toNat + lane.unreadCount start < 2 ^ 64 →
      lane.unread handle.channel.events.slots (t.object handle.region.object).memory =
        lane.unread handle.channel.events.slots start ++ [event.encode]

/-- What can become of a command line: it cannot be obeyed, and leaves all names and objects as they are; or its event
is pushed. -/
inductive Outcome (line : SignalLine) (s : SharedMemory) : Option Nat → SharedMemory → Prop where
  | refused {t : SharedMemory} (h : ∀ kind event handle, ¬line.Sends s kind event handle) (hnames : t.names = s.names)
    (hobjects : t.objects = s.objects) : Outcome line s (some 2) t
  | sent {kind : ChannelKind} {event : ControlEvent} {handle : ChannelHandle} {t : SharedMemory}
    (h : line.Sends s kind event handle) (hpushed : Pushed handle event s t) : Outcome line s (some 0) t

/-- Somebody who has attached to a segment pushes an event if its lane has room. -/
theorem access_push_of_lt {sizes : Sizes} {calls : Nat}
    (hattach : Segment.attach s line.segment kind.index = (.ok handle, t))
    (hused : Segment.Used sizes calls (s.object handle.region.object))
    (hroom : (handle.channel.events.lane event.kind).unreadCount (s.object handle.region.object).memory <
      handle.channel.events.slots) :
    (t.access handle.region.object (handle.channel.events.push event)).1 = .ok () ∧
      Pushed handle event s (t.access handle.region.object (handle.channel.events.push event)).2 := by
  obtain ⟨-, hlt, rfl⟩ := Segment.mapped_of_attach hattach
  have hchannel := hused.channel_eq hattach
  rw [hchannel] at hroom
  obtain ⟨m', hrun, -⟩ := ChannelCall.run_pushEvent_of_not_full (hused.intact.ready kind) (Nat.not_le.2 hroom)
  rw [← hchannel] at hrun
  have hreply := congrArg Prod.fst hrun
  refine ⟨hreply, rfl, SharedMemory.size_setObject _ _ _, SharedMemory.object_setObject_self _ _ hlt, ?_⟩
  exact fun number hne => SharedMemory.object_setObject_of_ne _ _ (Ne.symm hne)

/-- Otherwise nothing changes. -/
theorem access_push_of_le {sizes : Sizes} {calls : Nat}
    (hattach : Segment.attach s line.segment kind.index = (.ok handle, t))
    (hused : Segment.Used sizes calls (s.object handle.region.object))
    (hfull : handle.channel.events.slots ≤
      (handle.channel.events.lane event.kind).unreadCount (s.object handle.region.object).memory) :
    t.access handle.region.object (handle.channel.events.push event) = (.error (.laneFull event.kind), t) := by
  obtain ⟨-, -, rfl⟩ := Segment.mapped_of_attach hattach
  have hchannel := hused.channel_eq hattach
  rw [hchannel] at hfull
  have hrun := ChannelCall.run_pushEvent_of_full (hused.intact.ready kind) hfull
  rw [← hchannel] at hrun
  have hreply := congrArg Prod.fst hrun
  exact Prod.ext hreply (SharedMemory.access_of_read (congrArg Prod.snd hrun))

variable (files) in
/-- **Every command line comes to one of these ends.** -/
theorem outcome (hs : m.shared.OnlySegments) (h : line.Plain) :
    line.Outcome m.shared (line.run files m).1 (line.run files m).2.shared := by
  cases hkind : CommandLine.channel? line.channel with
  | none =>
    rw [run_of_unread h (.inl hkind)]
    refine .refused (fun kind event handle hsends => ?_) rfl rfl
    rw [CommandLine.channel?_eq_some_iff.2 hsends.channel_eq] at hkind
    cases hkind
  | some kind =>
  cases hevent : CommandLine.event? line.event with
  | none =>
    rw [run_of_unread h (.inr hevent)]
    refine .refused (fun kind event handle hsends => ?_) rfl rfl
    rw [CommandLine.event?_eq_some_iff.2 hsends.event_eq] at hevent
    cases hevent
  | some event =>
  rw [run_of_read h hkind hevent]
  have hnamed : ChannelKind.parse line.channel = .ok kind := CommandLine.channel?_eq_some_iff.1 hkind
  have hmeant : ControlEvent.parse line.event = .ok event := CommandLine.event?_eq_some_iff.1 hevent
  rcases hattach : Segment.attach m.shared line.segment kind.index with ⟨e | handle, t⟩
  · have ht : t = m.shared := by
      have hsame := Segment.attach_snd_of_error (congrArg Prod.fst hattach)
      rwa [hattach] at hsame
    obtain ⟨hcode, -⟩ := Segment.attach_error (congrArg Prod.fst hattach)
    rw [Command.send_of_attach_error hattach, ht]
    simp only [hcode]
    refine .refused (fun kind' event' handle hsends => ?_) rfl rfl
    obtain rfl : kind' = kind := Except.ok.inj (hsends.channel_eq.symm.trans hnamed)
    have hattached := hsends.attached
    rw [hattach] at hattached
    cases hattached
  · have hattached := congrArg Prod.fst hattach
    obtain ⟨sizes, calls, hused⟩ := hs _ _ _ hattached
    obtain ⟨-, -, ht⟩ := Segment.mapped_of_attach hattach
    have hsend : Command.send m.shared line.segment kind event =
        t.access handle.region.object (handle.channel.events.push event) := by
      simp only [Command.send, hattach]
    rw [hsend]
    rcases Nat.lt_or_ge ((handle.channel.events.lane event.kind).unreadCount
      (m.shared.object handle.region.object).memory) handle.channel.events.slots with hroom | hfull
    · obtain ⟨hreply, hpushed⟩ := access_push_of_lt hattach hused hroom
      simp only [hreply]
      exact .sent ⟨hnamed, hmeant, hattached, hroom⟩ hpushed
    · rw [access_push_of_le hattach hused hfull, ht]
      refine .refused (fun kind' event' handle' hsends => absurd hfull (Nat.not_le.2 ?_)) rfl rfl
      obtain rfl : kind' = kind := Except.ok.inj (hsends.channel_eq.symm.trans hnamed)
      obtain rfl : event' = event := Except.ok.inj (hsends.event_eq.symm.trans hmeant)
      obtain rfl : handle' = handle := Except.ok.inj (hsends.attached.symm.trans hattached)
      exact hsends.room

namespace Sends

variable (h : line.Sends s kind event handle)
include h

/-- The name of the segment leads to the object that somebody attaches to. -/
theorem found : s.find? line.segment = some (.object handle.region.object) ∧ handle.region.object < s.objects.size := by
  obtain ⟨hfound, hlt, -⟩ := Segment.mapped_of_attach (Prod.ext h.attached rfl)
  exact ⟨hfound, hlt⟩

/-- That object is a segment which is only used as one. -/
theorem used (hs : s.OnlySegments) :
    ∃ sizes calls, Segment.Used sizes calls (s.object handle.region.object) ∧ handle.channel = sizes.channel kind := by
  obtain ⟨sizes, calls, hused⟩ := hs _ _ _ h.attached
  exact ⟨sizes, calls, hused, hused.channel_eq (Prod.ext h.attached rfl)⟩

/-- **What is pushed is delivered.** -/
theorem delivered (hs : s.OnlySegments) (hpushed : Pushed handle event s t) : Delivered handle event s t := by
  obtain ⟨sizes, calls, hused, hchannel⟩ := h.used hs
  have happended : (handle.channel.events.lane event.kind).Appended handle.channel.events.slots event.encode
      (s.object handle.region.object).memory (t.object handle.region.object).memory := by
    have hroom := h.room
    rw [hpushed.object_eq, ChannelCall.perform]
    rw [hchannel] at hroom ⊢
    obtain ⟨m', hrun, happended⟩ := ChannelCall.run_pushEvent_of_not_full (hused.intact.ready kind) (Nat.not_le.2 hroom)
    rw [hrun]
    exact happended
  refine ⟨hpushed, happended, ?_⟩
  intro lane start hkept
  have hheld : lane.Holds handle.channel.events.slots (start.word64 lane.readAt)
      (lane.unread handle.channel.events.slots start) start := by
    simp only [lane, hchannel]
    exact hused.intact.holds_unread kind event.kind
  refine happended.unread_eq_append hheld ?_
  rwa [Lane.length_unread]

end Sends

namespace Outcome

/-- **The code says whether the command line could be obeyed**, and otherwise no name and no object has changed. -/
theorem exits (h : line.Outcome s code t) :
    (code = some 0 ↔ ∃ kind event handle, line.Sends s kind event handle) ∧
      (code ≠ some 0 → code = some 2 ∧ t.names = s.names ∧ t.objects = s.objects) := by
  cases h with
  | refused hnone hnames hobjects =>
    refine ⟨iff_of_false (by decide) ?_, fun _ => ⟨rfl, hnames, hobjects⟩⟩
    rintro ⟨kind, event, handle, hsends⟩
    exact hnone kind event handle hsends
  | sent hsends _ => exact ⟨iff_of_true rfl ⟨_, _, _, hsends⟩, fun hcode => absurd rfl hcode⟩

/-- Whoever could be obeyed was. -/
theorem pushed_of_sends (h : line.Outcome s code t) (hsends : line.Sends s kind event handle) :
    Pushed handle event s t := by
  cases h with
  | refused hnone _ _ => exact (hnone _ _ _ hsends).elim
  | sent hsends' hpushed =>
    obtain ⟨rfl, rfl, rfl⟩ := hsends.unique hsends'
    exact hpushed

end Outcome

end SignalLine

end MediaChannels
