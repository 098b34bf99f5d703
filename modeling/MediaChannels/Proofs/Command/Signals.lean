import MediaChannels.Proofs.Channel.Layout
import MediaChannels.Proofs.Command.Signal
import MediaChannels.Proofs.EventLanes.Waiting

/-!
# Events from the command line, one after the other

Many command lines send events to a table of segments, each in a process of its own. A segment that they are for goes on
being one, and each of its lanes is extended by those events that have come into it.

* `Lane.extended`: what a lane holds when entries were appended to it, across the wrap of its counters too.
* `Outcome.stage`, `Outcome.holds`: what one command line means for the table of segments, and for each lane in it.
* `SignalLine.holds_transcript`: the same for any number of them.
* `SignalLine.transcript_of_room`: as many as there is room for are obeyed.
* `exits_as_it_acts`: a process says with its code what it has done; `obeyed_signal_lost`: but when the counters of a
  lane wrap around, an event can be lost.
-/

namespace MediaChannels

/-! ## Lanes to which entries are appended -/

namespace Lane

variable {lane : Lane} {slots : Nat} {taken : UInt64} {entries : List LaneEntry} {m : Memory}

/-- What a lane holds after more entries were appended to those that it held, from the counter of the oldest one on. -/
def extended (slots : Nat) (taken : UInt64) (entries more : List LaneEntry) : List LaneEntry :=
  more.foldl (fun entries entry => lapped slots (taken + .ofNat entries.length) entries entry ++ [entry]) entries

theorem length_extended (slots : Nat) (taken : UInt64) (entries more : List LaneEntry) :
    (extended slots taken entries more).length = entries.length + more.length := by
  induction more generalizing entries with
  | nil => rfl
  | cons entry more ih =>
    rw [extended, List.foldl_cons, ← extended, ih, List.length_append, length_lapped, List.length_singleton,
      List.length_cons]
    omega

/-- **Nothing is lost if the slots go on across the wrap, or the counters do not come to it.** -/
theorem extended_eq_append (more : List LaneEntry)
    (hkept : slots ∣ 2 ^ 64 ∨ taken.toNat + entries.length + more.length ≤ 2 ^ 64) :
    extended slots taken entries more = entries ++ more := by
  induction more generalizing entries with
  | nil => exact (List.append_nil entries).symm
  | cons entry more ih =>
    have hlapped : lapped slots (taken + .ofNat entries.length) entries entry = entries := by
      rcases hkept with hdvd | hle
      · exact lapped_of_dvd _ _ _ _ hdvd
      · rw [List.length_cons] at hle
        refine lapped_of_le _ _ _ _ ?_
        rw [UInt64.toNat_add, UInt64.toNat_ofNat', Nat.add_mod_mod, Nat.mod_eq_of_lt (by omega)]
        exact Nat.le_add_left _ _
    have hnext : extended slots taken (entries ++ [entry]) more = entries ++ [entry] ++ more :=
      ih (hkept.imp_right fun hle => by
        rw [List.length_append, List.length_singleton]
        rw [List.length_cons] at hle
        omega)
    rw [List.append_assoc] at hnext
    rw [extended, List.foldl_cons, hlapped]
    exact hnext

/-- Among entries that were stored for well-formed events, all of these are found. -/
theorem eventsOf_map_encode {kind : ControlKind} {events : List ControlEvent}
    (h : ∀ event ∈ events, event.WellFormed ∧ event.kind = kind) :
    eventsOf kind (events.map ControlEvent.encode) = events := by
  induction events with
  | nil => rfl
  | cons event events ih =>
    obtain ⟨hwell, hkind⟩ := h event List.mem_cons_self
    have hencode := LaneEntry.event?_encode event
    rw [if_pos hwell, hkind] at hencode
    rw [List.map_cons, eventsOf, List.filterMap_cons_some hencode]
    exact congrArg (event :: ·) (ih fun event hmem => h event (List.mem_cons_of_mem _ hmem))

/-- Taking the oldest event again and again gives all events of the lane in their order, and nothing behind them. -/
theorem Holds.transcript_pop {lanes : EventLanes} {kind : ControlKind} {s : SharedMemory} {number : Nat}
    (hlt : number < s.objects.size)
    (h : (lanes.lane kind).Holds slots taken entries (s.object number).memory) (count : Nat) :
    (transcript (fun (_ : Unit) s => s.access number (lanes.pop kind)) (List.replicate count ()) s).1 =
      (List.range count).map fun i => (eventsOf kind entries)[i]? := by
  induction count generalizing taken entries s with
  | zero => rfl
  | succ count ih =>
    have hpopped : ((s.access number (lanes.pop kind)).2.object number).memory =
        (((lanes.lane kind).take kind true).run (s.object number).memory).2 :=
      congrArg MemoryObject.memory (SharedMemory.object_setObject_self _ _ hlt)
    have hnext := h.take kind true
    rw [← hpopped] at hnext
    have hrest := ih (by rwa [SharedMemory.access, SharedMemory.size_setObject]) hnext
    have hfound : (s.access number (lanes.pop kind)).1 = (fromEvent kind entries).head?.bind (·.event? kind) :=
      run_take h kind true
    rw [List.replicate_succ, transcript, hrest, hfound, List.range_succ_eq_map, List.map_cons, List.map_map, leftover,
      if_pos rfl, ← eventsOf_fromEvent kind entries]
    cases hfrom : fromEvent kind entries with
    | nil => rfl
    | cons entry rest =>
      obtain ⟨event, hevent⟩ := exists_event_of_fromEvent hfrom
      have hcons : eventsOf kind (entry :: rest) = event :: eventsOf kind rest := List.filterMap_cons_some hevent
      rw [hcons, List.head?_cons, Option.bind_some, hevent]
      rfl

end Lane

/-! ## One signal after the other -/

namespace SignalLine

variable {line : SignalLine} {files : String → Except SystemError (List UInt8)} {m : Machine} {kind : ChannelKind}
  {event : ControlEvent} {handle : ChannelHandle} {s t : SharedMemory} {code : Option Nat}

/-- The event that a command line brings into the lane of a kind `k`, on a channel of the object with a number, if it
exits with a code. -/
def arrival (line : SignalLine) (s : SharedMemory) (number : Nat) (kind : ChannelKind) (k : ControlKind)
    (code : Option Nat) : Option ControlEvent :=
  if code = some 0 ∧ s.find? line.segment = some (.object number) ∧ CommandLine.channel? line.channel = some kind then
    (CommandLine.event? line.event).filter (·.kind = k)
  else none

/-- Names lead where they led at first, and only to segments; one object is a segment with known sizes. -/
structure Stage (s₀ : SharedMemory) (number : Nat) (sizes : Sizes) (s : SharedMemory) : Prop where
  only : s.OnlySegments
  names_eq : s.names = s₀.names
  object_lt : number < s.objects.size
  used : ∃ calls, Segment.Used sizes calls (s.object number)

variable {s₀ : SharedMemory} {number : Nat} {sizes : Sizes} {k : ControlKind} {taken : UInt64}
  {entries : List LaneEntry}

theorem arrival_of_sends (hnames : s.names = s₀.names) {kind' : ChannelKind}
    (hsends : line.Sends s kind' event handle) :
    line.arrival s₀ number kind k (some 0) =
      if handle.region.object = number ∧ kind' = kind ∧ event.kind = k then some event else none := by
  have hfind : s₀.find? line.segment = some (.object handle.region.object) :=
    (congrArg (·.lookup line.segment) hnames).symm.trans hsends.found.1
  rw [arrival, hfind, CommandLine.channel?_eq_some_iff.2 hsends.channel_eq,
    CommandLine.event?_eq_some_iff.2 hsends.event_eq]
  by_cases hnumber : handle.region.object = number
  · by_cases hkind : kind' = kind
    · by_cases hk : event.kind = k <;> simp [hnumber, hkind, hk, Option.filter]
    · simp [hkind]
  · simp [hnumber]

namespace Outcome

/-- **A signal leaves a table of segments**, whoever it is for. -/
theorem stage (h : line.Outcome s code t) (hs : Stage s₀ number sizes s) : Stage s₀ number sizes t := by
  obtain ⟨calls, hwas⟩ := hs.used
  cases h with
  | refused hnone hnames hobjects =>
    have hobject (number : Nat) : t.object number = s.object number := by rw [SharedMemory.object, hobjects]; rfl
    refine ⟨hs.only.of_find fun name other hfound => .inl ⟨?_, hobject other⟩, hnames.trans hs.names_eq, ?_,
      calls, ?_⟩
    · rwa [SharedMemory.find?, hnames] at hfound
    · rw [hobjects]
      exact hs.object_lt
    · rw [hobject]
      exact hwas
  | @sent kind event handle t hsends hpushed =>
    obtain ⟨sizes', calls', hused, hchannel⟩ := hsends.used hs.only
    have hcalled : Segment.Used sizes' (calls' + 1) (t.object handle.region.object) := by
      rw [hpushed.object_eq]
      exact hused.asked hchannel _
    refine ⟨hs.only.of_find fun name other hfound => ?_, hpushed.names_eq.trans hs.names_eq, ?_, ?_⟩
    · by_cases hother : other = handle.region.object
      · rw [hother]
        exact .inr ⟨_, _, hcalled⟩
      · rw [SharedMemory.find?, hpushed.names_eq] at hfound
        exact .inl ⟨hfound, hpushed.others other hother⟩
    · rw [hpushed.size_eq]
      exact hs.object_lt
    · by_cases hnumber : number = handle.region.object
      · subst hnumber
        obtain rfl := hwas.sizes_eq hused
        exact ⟨_, hcalled⟩
      · rw [hpushed.others number hnumber]
        exact ⟨calls, hwas⟩

/-- **A signal appends its event to its own lane, and to no other.** -/
theorem holds (h : line.Outcome s code t) (hs : Stage s₀ number sizes s)
    (hheld : ((sizes.channel kind).events.lane k).Holds sizes.eventSlots taken entries (s.object number).memory) :
    ((sizes.channel kind).events.lane k).Holds sizes.eventSlots taken
      (Lane.extended sizes.eventSlots taken entries
        ((line.arrival s₀ number kind k code).toList.map ControlEvent.encode)) (t.object number).memory := by
  cases h with
  | refused hnone hnames hobjects =>
    rw [SharedMemory.object, hobjects]
    exact hheld
  | @sent kind' event handle t hsends hpushed =>
    obtain ⟨calls, hwas⟩ := hs.used
    obtain ⟨sizes', calls', hused, hchannel⟩ := hsends.used hs.only
    rw [arrival_of_sends hs.names_eq hsends]
    by_cases hnumber : number = handle.region.object
    · subst hnumber
      obtain rfl := hwas.sizes_eq hused
      rw [hpushed.object_eq]
      by_cases hlane : kind' = kind ∧ event.kind = k
      · obtain ⟨rfl, rfl⟩ := hlane
        rw [if_pos ⟨rfl, rfl, rfl⟩]
        have hroom := hsends.room
        rw [hchannel, hheld.unreadCount_eq] at hroom
        exact ChannelCall.holds_pushEvent hchannel event hheld hroom
      · rw [if_neg fun h => hlane h.2]
        exact ChannelCall.holds_pushEvent_of_ne (hused.intact.ready kind') hchannel hlane hheld
    · rw [if_neg fun h => hnumber h.1.symm, hpushed.others number hnumber]
      exact hheld

end Outcome

/-- The events that command lines bring into a lane, by the codes with which they exit. -/
def arrivals (s : SharedMemory) (number : Nat) (kind : ChannelKind) (k : ControlKind) (lines : List SignalLine)
    (codes : List (Option Nat)) : List ControlEvent :=
  (lines.zip codes).filterMap fun (line, code) => line.arrival s number kind k code

variable (files) in
/-- **However many signals there are**, each lane of a segment is extended by those that have come into it. -/
theorem holds_transcript {lines : List SignalLine} (hlines : ∀ line ∈ lines, line.Plain)
    (hs : Stage s₀ number sizes m.shared)
    (hheld : ((sizes.channel kind).events.lane k).Holds sizes.eventSlots taken entries
      (m.shared.object number).memory) :
    let after := transcript (run files) lines m
    Stage s₀ number sizes after.2.shared ∧
      ((sizes.channel kind).events.lane k).Holds sizes.eventSlots taken
        (Lane.extended sizes.eventSlots taken entries
          ((arrivals s₀ number kind k lines after.1).map ControlEvent.encode))
        (after.2.shared.object number).memory := by
  induction lines generalizing m entries with
  | nil => exact ⟨hs, hheld⟩
  | cons line lines ih =>
    intro after
    have houtcome := outcome files hs.only (hlines line List.mem_cons_self)
    obtain ⟨hlast, hends⟩ := ih (fun line hmem => hlines line (List.mem_cons_of_mem _ hmem)) (houtcome.stage hs)
      (houtcome.holds hs hheld)
    refine ⟨hlast, ?_⟩
    have harrivals : arrivals s₀ number kind k (line :: lines) after.1 =
        (line.arrival s₀ number kind k (run files line m).1).toList ++
          arrivals s₀ number kind k lines (transcript (run files) lines (run files line m).2).1 := by
      simp only [arrivals, after, transcript, List.zip_cons_cons, List.filterMap_cons]
      cases line.arrival s₀ number kind k (run files line m).1 <;> rfl
    rw [harrivals, List.map_append, Lane.extended, List.foldl_append]
    exact hends

/-- What arrives is well formed, and of the kind of the lane. -/
theorem of_mem_arrivals {lines : List SignalLine} {codes : List (Option Nat)}
    (h : event ∈ arrivals s number kind k lines codes) : event.WellFormed ∧ event.kind = k := by
  obtain ⟨⟨line, code⟩, -, harrival⟩ := List.mem_filterMap.1 h
  replace harrival : line.arrival s number kind k code = some event := harrival
  unfold arrival at harrival
  split at harrival
  · obtain ⟨hevent, hk⟩ := Option.filter_eq_some_iff.1 harrival
    exact ⟨ControlEvent.wellFormed_of_parse (CommandLine.event?_eq_some_iff.1 hevent), of_decide_eq_true hk⟩
  · cases harrival

/-! ## Command lines that are obeyed -/

/-- A command line is for a channel of the object with a number, and means an event. -/
structure IsFor (line : SignalLine) (s : SharedMemory) (number : Nat) (kind : ChannelKind) (event : ControlEvent) :
    Prop where
  plain : line.Plain
  name_ok : SharedMemory.checkName line.segment = .ok ()
  found : s.find? line.segment = some (.object number)
  channel_eq : ChannelKind.parse line.channel = .ok kind
  event_eq : ControlEvent.parse line.event = .ok event

/-- Somebody can attach to the segment, whatever was sent to it. -/
theorem Stage.exists_attach (hs : Stage s₀ number sizes s) {name : String}
    (hname : SharedMemory.checkName name = .ok ()) (hfound : s₀.find? name = some (.object number))
    (hsize : (Layout.of sizes).totalSize ≤ SharedMemory.addressSpace) (kind : ChannelKind) :
    ∃ handle, (Segment.attach s name kind.index).1 = .ok handle ∧ handle.region.object = number ∧
      handle.channel = sizes.channel kind := by
  obtain ⟨calls, hused⟩ := hs.used
  have hintact := hused.intact
  let region : Region := { mapping := 0, object := number, size := (s.object number).size, name, owner := false }
  have hpos : 0 < (Layout.of sizes).totalSize := Nat.lt_of_lt_of_le (by decide) (Nat.le_add_right _ _)
  have hbacked : s.Backs region := by
    refine ⟨hname, ?_, hs.object_lt, rfl, ?_, ?_⟩
    · rwa [SharedMemory.find?, hs.names_eq]
    · exact Nat.lt_of_lt_of_eq hpos hintact.size_eq.symm
    · exact Nat.le_trans (Nat.le_of_eq hintact.size_eq) hsize
  have hattach := Segment.attach_of_accepts hbacked (hintact.accepts kind)
  exact ⟨_, congrArg Prod.fst hattach, rfl, rfl⟩

/-- **Who names a segment, a channel and an event is obeyed as long as there is room.** -/
theorem Stage.exists_sends (hs : Stage s₀ number sizes s) (hfor : line.IsFor s₀ number kind event)
    (hsize : (Layout.of sizes).totalSize ≤ SharedMemory.addressSpace)
    (hheld : ((sizes.channel kind).events.lane event.kind).Holds sizes.eventSlots taken entries
      (s.object number).memory)
    (hroom : entries.length < sizes.eventSlots) : ∃ handle, line.Sends s kind event handle := by
  obtain ⟨handle, hattach, hobject, hchannel⟩ := hs.exists_attach hfor.name_ok hfor.found hsize kind
  refine ⟨handle, hfor.channel_eq, hfor.event_eq, hattach, ?_⟩
  rw [hobject, hchannel, hheld.unreadCount_eq]
  exact hroom

/-- Who is obeyed brings the event into the lane of its kind. -/
theorem arrival_of_isFor (hfor : line.IsFor s number kind event) :
    line.arrival s number kind event.kind (some 0) = some event := by
  rw [arrival, if_pos ⟨rfl, hfor.found, CommandLine.channel?_eq_some_iff.2 hfor.channel_eq⟩,
    CommandLine.event?_eq_some_iff.2 hfor.event_eq]
  simp [Option.filter]

variable (files) in
/-- **As many signals as there is room for are all obeyed**, and their events arrive in their order. -/
theorem transcript_of_room {sent : List (SignalLine × ControlEvent)}
    (hsent : ∀ p ∈ sent, p.1.IsFor s₀ number kind p.2 ∧ p.2.kind = k)
    (hsize : (Layout.of sizes).totalSize ≤ SharedMemory.addressSpace) (hs : Stage s₀ number sizes m.shared)
    (hheld : ((sizes.channel kind).events.lane k).Holds sizes.eventSlots taken entries (m.shared.object number).memory)
    (hroom : entries.length + sent.length ≤ sizes.eventSlots) :
    let after := transcript (run files) (sent.map Prod.fst) m
    after.1 = sent.map (fun _ => some 0) ∧
      arrivals s₀ number kind k (sent.map Prod.fst) after.1 = sent.map Prod.snd := by
  induction sent generalizing m entries with
  | nil => exact ⟨rfl, rfl⟩
  | cons p sent ih =>
    obtain ⟨line, event⟩ := p
    obtain ⟨hfor, rfl⟩ := hsent _ List.mem_cons_self
    rw [List.length_cons] at hroom
    obtain ⟨handle, hsends⟩ := hs.exists_sends hfor hsize hheld (by omega)
    have houtcome := outcome files hs.only hfor.plain
    have hcode : (run files line m).1 = some 0 := houtcome.exits.1.2 ⟨_, _, _, hsends⟩
    have harrival : line.arrival s₀ number kind event.kind (run files line m).1 = some event := by
      rw [hcode]
      exact arrival_of_isFor hfor
    have hnext := houtcome.holds (k := event.kind) hs hheld
    rw [harrival] at hnext
    have hroom' : (Lane.extended sizes.eventSlots taken entries [event.encode]).length + sent.length ≤
        sizes.eventSlots := by
      rw [Lane.length_extended, List.length_singleton]
      omega
    obtain ⟨hcodes, harrivals⟩ := ih (fun p hmem => hsent p (List.mem_cons_of_mem _ hmem)) (houtcome.stage hs) hnext
      hroom'
    refine ⟨?_, ?_⟩
    · simp only [List.map_cons, transcript, hcode, hcodes]
    · simp only [arrivals] at harrivals
      simp only [arrivals, List.map_cons, transcript, List.zip_cons_cons, List.filterMap_cons, harrival, harrivals]

/-- A table can hold one segment that was just created. -/
theorem exists_stage {name : String} (hname : SharedMemory.checkName name = .ok ()) (hv : sizes.Valid)
    (hsize : (Layout.of sizes).totalSize ≤ SharedMemory.addressSpace) :
    ∃ s number, s.find? name = some (.object number) ∧ Stage s number sizes s ∧
      Segment.Used sizes 0 (s.object number) := by
  have hfree : SharedMemory.empty.find? name = none := rfl
  obtain ⟨segment, s, h⟩ := Segment.exists_create hname hv (Layout.of?_of_valid hv) hsize (.inl hfree)
  have hused := Segment.Used.created h
  obtain ⟨htouches, -⟩ := Segment.carries_create SharedMemory.regular_empty h
  have honly := SharedMemory.onlySegments_empty.create SharedMemory.regular_empty h
  exact ⟨s, segment.region.object, htouches.named, ⟨honly, rfl, htouches.object_lt, 0, hused⟩, hused⟩

/-! ## What signals do -/

/-- **A signal has the effect that its code reports.** Where names lead only to segments, a command line without options
exits with the code zero if and only if it names a channel and an event, somebody can attach to that channel of the
segment, and the lane of the event has room. Then the event is appended to that lane, and nothing else in any object has
changed; in all other cases the code is two, and no name and no object has changed at all. After any number of such
command lines, for whatever segments, a lane is extended by the events of those that were for it and exited with zero,
and consumers take the events out in this order. None of them is lost if the number of slots divides `2 ^ 64`, or if the
counters of the lane do not come to that number on the way; and they come no further than by one with every call that
was ever made on the segment. -/
theorem exits_as_it_acts (hs : m.shared.OnlySegments) (files : String → Except SystemError (List UInt8)) :
    (∀ line : SignalLine, line.Plain →
      let after := line.run files m
      (after.1 = some 0 ↔ ∃ kind event handle, line.Sends m.shared kind event handle) ∧
        (after.1 ≠ some 0 →
          after.1 = some 2 ∧ after.2.shared.names = m.shared.names ∧ after.2.shared.objects = m.shared.objects) ∧
        ∀ kind event handle, line.Sends m.shared kind event handle →
          Delivered handle event m.shared after.2.shared) ∧
    ∀ (lines : List SignalLine) (name : String) (kind : ChannelKind) (handle : ChannelHandle) (k : ControlKind),
      (∀ line ∈ lines, line.Plain) → (Segment.attach m.shared name kind.index).1 = .ok handle →
        let lane := handle.channel.events.lane k
        let slots := handle.channel.events.slots
        let start := (m.shared.object handle.region.object).memory
        let after := transcript (run files) lines m
        let sent := arrivals m.shared handle.region.object kind k lines after.1
        let entries :=
          Lane.extended slots (start.word64 lane.readAt) (lane.unread slots start) (sent.map ControlEvent.encode)
        lane.unread slots (after.2.shared.object handle.region.object).memory = entries ∧
          (∀ count, (transcript (fun _ s => s.access handle.region.object (handle.channel.events.pop k))
            (List.replicate count ()) after.2.shared).1 =
              (List.range count).map fun i => (Lane.eventsOf k entries)[i]?) ∧
          (slots ∣ 2 ^ 64 ∨ (start.word64 lane.readAt).toNat + lane.unreadCount start + sent.length ≤ 2 ^ 64 →
            entries = lane.unread slots start ++ sent.map ControlEvent.encode ∧
              Lane.eventsOf k entries = Lane.eventsOf k (lane.unread slots start) ++ sent) ∧
          ∀ sizes calls, Segment.Used sizes calls (m.shared.object handle.region.object) →
            (start.word64 lane.readAt).toNat + lane.unreadCount start ≤ calls := by
  refine ⟨fun line hplain => ?_, fun lines name kind handle k hlines hattach => ?_⟩
  · intro after
    have houtcome := outcome files hs hplain
    obtain ⟨hzero, hother⟩ := houtcome.exits
    exact ⟨hzero, hother, fun kind event handle hsends => hsends.delivered hs (houtcome.pushed_of_sends hsends)⟩
  · intro lane slots start after sent entries
    obtain ⟨sizes, calls, hused⟩ := hs _ _ _ hattach
    have hchannel : handle.channel = sizes.channel kind := hused.channel_eq (Prod.ext hattach rfl)
    obtain ⟨-, hlt, -⟩ := Segment.mapped_of_attach (Prod.ext hattach rfl)
    have hstage : Stage m.shared handle.region.object sizes m.shared := ⟨hs, rfl, hlt, calls, hused⟩
    obtain ⟨hlast, hheld⟩ := holds_transcript files hlines hstage (hused.intact.holds_unread kind k)
    have hends : lane.Holds slots (start.word64 lane.readAt) entries
        (after.2.shared.object handle.region.object).memory := by
      simp only [lane, slots, entries, hchannel]
      exact hheld
    refine ⟨hends.unread_eq, hends.transcript_pop hlast.object_lt, fun hkept => ?_, fun sizes' calls' hused' => ?_⟩
    · have hentries : entries = lane.unread slots start ++ sent.map ControlEvent.encode := by
        refine Lane.extended_eq_append _ (hkept.imp_right fun hle => ?_)
        rwa [Lane.length_unread, List.length_map]
      refine ⟨hentries, ?_⟩
      have hfound : Lane.eventsOf k (sent.map ControlEvent.encode) = sent :=
        Lane.eventsOf_map_encode fun event => of_mem_arrivals
      rw [hentries, Lane.eventsOf, List.filterMap_append, ← Lane.eventsOf, ← Lane.eventsOf, hfound]
    · have hcounter := hused'.intact.counter_le kind k
      rwa [← hused'.channel_eq (Prod.ext hattach rfl)] at hcounter

/-- Two command lines, and the events that they mean. -/
def fiveAndSeven : List (SignalLine × ControlEvent) :=
  [(⟨"desk", "video0", "bitrate=5"⟩, .bitrate 5), (⟨"desk", "0", "Bitrate = 7"⟩, .bitrate 7)]

theorem isFor_of_mem_fiveAndSeven (hfound : s.find? "desk" = some (.object number)) :
    ∀ p ∈ fiveAndSeven, p.1.IsFor s number .video0 p.2 ∧ p.2.kind = .bitrate := by
  have hfive : IsFor ⟨"desk", "video0", "bitrate=5"⟩ s number .video0 (.bitrate 5) := ⟨by decide, rfl, hfound, rfl, rfl⟩
  have hseven : IsFor ⟨"desk", "0", "Bitrate = 7"⟩ s number .video0 (.bitrate 7) := ⟨by decide, rfl, hfound, rfl, rfl⟩
  simp only [fiveAndSeven, List.forall_mem_cons]
  exact ⟨⟨hfive, rfl⟩, ⟨hseven, rfl⟩, List.forall_mem_nil _⟩

/-- Two signals to a segment that was just created, and one that is refused because a rate cannot be zero. -/
theorem exits_as_it_acts_two :
    let nowhere : String → Except SystemError (List UInt8) := fun _ => .error .noSuchFile
    ∃ (m : Machine) (handle : ChannelHandle), m.shared.OnlySegments ∧
      (Segment.attach m.shared "desk" 0).1 = .ok handle ∧ (∀ line ∈ fiveAndSeven.map Prod.fst, line.Plain) ∧
      let after := transcript (run nowhere) (fiveAndSeven.map Prod.fst) m
      after.1 = [some 0, some 0] ∧
        (transcript (fun _ s => s.access handle.region.object (handle.channel.events.pop .bitrate))
          (List.replicate 3 ()) after.2.shared).1 = [some (.bitrate 5), some (.bitrate 7), none] ∧
        (run nowhere ⟨"desk", "video0", "bitrate=0"⟩ m).1 = some 2 := by
  intro nowhere
  let sizes : Sizes := { queueSize := 2, slotSize := 64, eventSlots := 4 }
  have hv : sizes.Valid := Sizes.check_eq_ok_iff.1 rfl
  have hsize : (Layout.of sizes).totalSize ≤ SharedMemory.addressSpace := by decide
  have hname : SharedMemory.checkName "desk" = .ok () := rfl
  obtain ⟨s, number, hfound, hstage, hused⟩ := exists_stage hname hv hsize
  obtain ⟨handle, hattach, rfl, hchannel⟩ := hstage.exists_attach hname hfound hsize .video0
  have hsent := isFor_of_mem_fiveAndSeven hfound
  have hplain : ∀ line ∈ fiveAndSeven.map Prod.fst, line.Plain := by decide
  obtain ⟨taken, entries, hheld, hle⟩ := hused.intact.lanes .video0 .bitrate
  obtain rfl : entries = [] := List.eq_nil_of_length_eq_zero (by omega)
  obtain ⟨hcodes, harrivals⟩ := transcript_of_room nowhere (m := { shared := s }) hsent hsize hstage hheld (by decide)
  obtain ⟨hone, hall⟩ := exits_as_it_acts (m := { shared := s }) hstage.only nowhere
  refine ⟨{ shared := s }, handle, hstage.only, hattach, hplain, hcodes, ?_, ?_⟩
  · obtain ⟨-, hpops, hkept, -⟩ := hall _ "desk" .video0 handle .bitrate hplain hattach
    have hdvd : handle.channel.events.slots ∣ 2 ^ 64 := by
      rw [hchannel]
      exact (by decide : 4 ∣ 2 ^ 64)
    have hempty : (handle.channel.events.lane .bitrate).unread handle.channel.events.slots
        (s.object handle.region.object).memory = [] := by
      rw [hchannel]
      exact hheld.unread_eq
    obtain ⟨-, hevents⟩ := hkept (.inl hdvd)
    rw [hpops, hevents, hempty, harrivals]
    rfl
  · obtain ⟨hzero, hother, -⟩ := hone ⟨"desk", "video0", "bitrate=0"⟩ (by decide)
    refine (hother fun hcode => ?_).1
    obtain ⟨kind, event, handle', hsends⟩ := hzero.1 hcode
    cases hsends.event_eq

/-- **With three slots and counters that are about to wrap around, a signal that was obeyed is lost**: the next one
comes into the same slot. The counters are so after `2 ^ 64 - 1` events have come and gone. -/
theorem obeyed_signal_lost :
    ¬∀ (m : Machine) (files : String → Except SystemError (List UInt8)) (lines : List SignalLine) (name : String)
      (kind : ChannelKind) (handle : ChannelHandle) (k : ControlKind), m.shared.OnlySegments →
        (∀ line ∈ lines, line.Plain) → (Segment.attach m.shared name kind.index).1 = .ok handle →
          (handle.channel.events.lane k).unreadCount (m.shared.object handle.region.object).memory = 0 →
            let after := transcript (run files) lines m
            let sent := arrivals m.shared handle.region.object kind k lines after.1
            (∀ code ∈ after.1, code = some 0) →
              (transcript (fun _ s => s.access handle.region.object (handle.channel.events.pop k))
                (List.replicate sent.length ()) after.2.shared).1 = sent.map some := by
  intro hall
  let nowhere : String → Except SystemError (List UInt8) := fun _ => .error .noSuchFile
  let sizes : Sizes := { queueSize := 2, slotSize := 64, eventSlots := 3 }
  let one : EventOf .bitrate := ⟨.bitrate 1, by decide⟩
  have hv : sizes.Valid := Sizes.check_eq_ok_iff.1 rfl
  have hsize : (Layout.of sizes).totalSize ≤ SharedMemory.addressSpace := by decide
  have hname : SharedMemory.checkName "desk" = .ok () := rfl
  -- A new segment whose lane was filled and emptied again and again.
  obtain ⟨s, number, hfound, hnew, hused⟩ := exists_stage hname hv hsize
  obtain ⟨calls, o, hwound, hheld⟩ := hused.exists_wound .video0 one (2 ^ 64 - 1)
  let m : Machine := { shared := s.setObject number o }
  have hobject : m.shared.object number = o := SharedMemory.object_setObject_self _ _ hnew.object_lt
  have hstage : Stage m.shared number sizes m.shared := by
    refine ⟨hnew.only.setObject hnew.object_lt hwound, rfl, ?_, calls, ?_⟩
    · rw [SharedMemory.size_setObject]
      exact hnew.object_lt
    · rwa [hobject]
  rw [← hobject] at hheld
  obtain ⟨handle, hattach, rfl, hchannel⟩ := hstage.exists_attach hname hfound hsize .video0
  have hsent := isFor_of_mem_fiveAndSeven (s := m.shared) hfound
  have hplain : ∀ line ∈ fiveAndSeven.map Prod.fst, line.Plain := by decide
  obtain ⟨hcodes, harrivals⟩ := transcript_of_room nowhere hsent hsize hstage hheld (by decide)
  obtain ⟨hlast, hends⟩ := holds_transcript nowhere hplain hstage hheld
  have hempty :
      (handle.channel.events.lane .bitrate).unreadCount (m.shared.object handle.region.object).memory = 0 := by
    rw [hchannel]
    exact hheld.unreadCount_eq
  have hobeyed : ∀ code ∈ (transcript (run nowhere) (fiveAndSeven.map Prod.fst) m).1, code = some 0 := by
    rw [hcodes]
    decide
  have hclaim := hall m nowhere _ "desk" .video0 handle .bitrate hstage.only hplain hattach hempty hobeyed
  rw [harrivals] at hclaim hends
  have hlost : Lane.extended 3 (.ofNat (2 ^ 64 - 1)) [] ((fiveAndSeven.map Prod.snd).map ControlEvent.encode) =
      [(1, 7), (1, 7)] := by decide
  rw [hlost] at hends
  have hpops := hends.transcript_pop hlast.object_lt 2
  rw [← hchannel] at hpops
  exact absurd (hpops.symm.trans hclaim) (by decide)

end SignalLine

end MediaChannels
