import MediaChannels.Proofs.Channel.Shown
import MediaChannels.Proofs.Segment.Created

/-!
# Channels in use do not disturb each other

The users of a segment hold handles of its four channels, in any number and from any source, and ask of them whatever
they like, in any order.

* `SegmentUsage.step`: what users do, and what is remembered of it.
* `SegmentUsage.Sound`: the invariant: the segment stays live, its header stays as it was created, every handle leads to
  a channel of it, and every channel shows what was set last.
* `SegmentUsage.Sound.step`, `SegmentUsage.Sound.run`: one step keeps it, and so does any use.
* `parts_isolated`: what follows for the answers that users get.
-/

namespace MediaChannels

/-! ## Uses of a segment -/

/-- What the users of a segment can do: get the handle of a channel from its creator, attach to an index, also from a
foreign program, copy a handle, and ask something of a handle. Handles are counted in the order in which they came. -/
inductive SegmentUse : Type 1 where
  | channel (kind : ChannelKind)
  | attach (index : Nat)
  | attachClient (index : Nat)
  | clone (number : Nat)
  | ask (number : Nat) {α : Type} (call : ChannelCall α)

/-- Something that was asked of a channel. -/
structure AskedCall : Type 1 where
  kind : ChannelKind
  {Answer : Type}
  call : ChannelCall Answer

/-- Shared memory, the handles that users hold, and all that they have asked so far. -/
structure SegmentUsage : Type 1 where
  shared : SharedMemory
  handles : List ChannelHandle := []
  asked : List AskedCall := []

namespace SegmentUsage

variable (segment : Segment) (u : SegmentUsage)

/-- One more handle. -/
def gain (handle : ChannelHandle) (shared : SharedMemory) : SegmentUsage :=
  { u with shared, handles := u.handles ++ [handle] }

/-- One step of a use. -/
def step : SegmentUse → SegmentUsage
  | .channel kind => u.gain (segment.channel kind) u.shared
  | .attach index =>
    match Segment.attach u.shared segment.region.name index with
    | (.ok handle, shared) => u.gain handle shared
    | (.error _, shared) => { u with shared }
  | .attachClient index =>
    match Client.attach u.shared (some (Utf8.encode segment.region.name ++ [0])) index with
    | (some client, shared) => u.gain client.handle shared
    | (none, shared) => { u with shared }
  | .clone number =>
    match u.handles[number]? with
    | some handle => u.gain handle u.shared
    | none => u
  | .ask number call =>
    match u.handles[number]? with
    | some handle =>
      { u with
        shared := (handle.ask call u.shared).2
        asked := u.asked ++ [{ kind := handle.channel.kind, call }] }
    | none => u

/-- A whole use. -/
def run (uses : List SegmentUse) : SegmentUsage := uses.foldl (step segment) u

/-- The value that was set last on a channel, among the calls that set one. -/
def lastSet {β : Type} (sets : {α : Type} → ChannelCall α → Option β) (kind : ChannelKind) : Option β :=
  (u.asked.filterMap fun a => if a.kind = kind then sets a.call else none).getLast?

variable {segment u} {β : Type} {sets : {α : Type} → ChannelCall α → Option β} {kind : ChannelKind}

/-- A call on another channel sets nothing here, and a call that sets something sets it last. -/
theorem lastSet_append (shared : SharedMemory) (handles : List ChannelHandle) (a : AskedCall) :
    lastSet ⟨shared, handles, u.asked ++ [a]⟩ sets kind =
      ((if a.kind = kind then sets a.call else none).or (u.lastSet sets kind)) := by
  simp only [lastSet, List.filterMap_append, List.getLast?_append]
  cases hset : (if a.kind = kind then sets a.call else none) with
  | none => simp [hset]
  | some b => simp [hset]

end SegmentUsage

/-! ## Live segments stay live -/

/-- A handle leads to the channel of a kind in a segment. -/
structure ChannelHandle.LeadsTo (handle : ChannelHandle) (segment : Segment) (kind : ChannelKind) : Prop where
  channel_eq : handle.channel = segment.sizes.channel kind
  object_eq : handle.region.object = segment.region.object

namespace Segment.Live

variable {segment : Segment} {s : SharedMemory} {handle handle' : ChannelHandle} {kind kind' : ChannelKind} {α β : Type}

/-- The handles of the creator lead to the channels of the segment. -/
theorem leadsTo_channel (h : segment.Live s) (kind : ChannelKind) : (segment.channel kind).LeadsTo segment kind :=
  ⟨h.channel_eq kind, rfl⟩

/-- So does every other mapping of the region. -/
theorem leadsTo_mapping (_h : segment.Live s) (mapping : Nat) (owner : Bool) (kind : ChannelKind) :
    ChannelHandle.LeadsTo ⟨{ segment.region with mapping, owner }, segment.sizes.channel kind⟩ segment kind :=
  ⟨rfl, rfl⟩

/-- What is asked of a handle is asked of the bytes of the segment. -/
theorem ask_eq (h : segment.Live s) (hto : handle.LeadsTo segment kind) (call : ChannelCall α) :
    (handle.ask call s).1 = ((call.perform handle).run (segment.bytes s)).1 ∧
      segment.bytes (handle.ask call s).2 = ((call.perform handle).run (segment.bytes s)).2 := by
  simp only [ChannelHandle.ask, bytes, hto.object_eq]
  exact ⟨rfl, h.backed.memory_access _⟩

/-- **Whatever is asked of its channels, a segment stays live, and so does its header.** -/
theorem ask (h : segment.Live s) (hto : handle.LeadsTo segment kind) (call : ChannelCall α) :
    segment.Live (handle.ask call s).2 ∧
      Memory.Agree 0 headerSize (segment.bytes (handle.ask call s).2) (segment.bytes s) := by
  obtain ⟨hwithin, hready⟩ := ChannelCall.perform_sound (h.ready kind) hto.channel_eq call
  have hheader := ChannelPart.agree_header_of_within hwithin
  have hbacked := h.backed.access (call.perform handle)
  rw [← hto.object_eq] at hbacked
  rw [(h.ask_eq hto call).2]
  refine ⟨⟨h.valid, h.layout_eq, h.fits, h.size_eq, hbacked, ?_, fun k part => ?_⟩, hheader⟩
  · rw [(h.ask_eq hto call).2]
    exact h.published.congr hheader
  · rw [(h.ask_eq hto call).2]
    by_cases hk : k = kind
    · rw [hk]
      exact hready part
    · exact (h.ready k part).congr (ChannelPart.agree_part_of_within hwithin (.inl (Ne.symm hk)))

/-- A call does not change the answer of another that names other parts, or another channel. -/
theorem answer_after (h : segment.Live s) (hto : handle.LeadsTo segment kind) (hto' : handle'.LeadsTo segment kind')
    (call : ChannelCall α) (call' : ChannelCall β) (hapart : kind ≠ kind' ∨ ∀ q ∈ call'.parts, q ∉ call.parts) :
    (handle'.ask call' (handle.ask call s).2).1 = (handle'.ask call' s).1 := by
  rw [((h.ask hto call).1.ask_eq hto' call').1, (h.ask_eq hto call).2, (h.ask_eq hto' call').1]
  exact ChannelCall.answer_after h.ready hto.channel_eq hto'.channel_eq call call' hapart

/-- A foreign program that passes the name as bytes attaches to the same channels. -/
theorem attachClient (h : segment.Live s) (kind : ChannelKind) :
    Client.attach s (some (Utf8.encode segment.region.name ++ [0])) kind.index =
      (some { handle := { region := { segment.region with mapping := s.mappings, owner := false }
                          channel := segment.sizes.channel kind } }, { s with mappings := s.mappings + 1 }) := by
  obtain ⟨-, -, -, hnul⟩ := SharedMemory.checkName_eq_ok_iff.1 h.backed.name_ok
  simp only [Client.attach, Option.bind_some, Utf8.takeWhile_encode hnul, Utf8.decode?_encode, h.attach kind]

/-- One more mapping changes nothing. -/
theorem mapped (h : segment.Live s) (mappings : Nat) : segment.Live { s with mappings } :=
  ⟨h.valid, h.layout_eq, h.fits, h.size_eq, h.backed.mapped mappings, h.published, h.ready⟩

end Segment.Live

/-! ## The invariant -/

namespace SegmentUsage

variable {segment : Segment} {header : Memory} {u : SegmentUsage}

/-- What holds of a segment in use. -/
structure Sound (segment : Segment) (header : Memory) (u : SegmentUsage) : Prop where
  live : segment.Live u.shared
  header_eq : Memory.Agree 0 Segment.headerSize (segment.bytes u.shared) header
  leadsTo : ∀ handle ∈ u.handles, handle.LeadsTo segment handle.channel.kind
  shows : ∀ kind, (segment.sizes.channel kind).Shows ((u.lastSet ChannelCall.activeSet? kind).getD false)
    ((u.lastSet ChannelCall.codecSet? kind).getD 0) ((u.lastSet ChannelCall.displaySet? kind).getD "")
    (segment.bytes u.shared)

/-- One more handle of the segment, on bytes that stay. -/
theorem Sound.gain (h : Sound segment header u) {handle : ChannelHandle} {kind : ChannelKind}
    (hto : handle.LeadsTo segment kind) {shared : SharedMemory} (hlive : segment.Live shared)
    (hbytes : segment.bytes shared = segment.bytes u.shared) : Sound segment header (u.gain handle shared) := by
  refine ⟨hlive, ?_, fun handle' hmem => ?_, fun k => ?_⟩
  · show Memory.Agree _ _ (segment.bytes shared) _
    rw [hbytes]
    exact h.header_eq
  · rcases List.mem_append.1 hmem with hmem | hmem
    · exact h.leadsTo handle' hmem
    · obtain rfl := List.mem_singleton.1 hmem
      have hkind : handle'.channel.kind = kind := by rw [hto.channel_eq]; rfl
      rw [hkind]
      exact hto
  · show (segment.sizes.channel k).Shows _ _ _ (segment.bytes shared)
    rw [hbytes]
    exact h.shows k

/-- Asking something of a handle. -/
theorem Sound.ask (h : Sound segment header u) {handle : ChannelHandle} (hmem : handle ∈ u.handles) {α : Type}
    (call : ChannelCall α) :
    Sound segment header
      ⟨(handle.ask call u.shared).2, u.handles, u.asked ++ [{ kind := handle.channel.kind, call }]⟩ := by
  have hto := h.leadsTo handle hmem
  obtain ⟨hlive, hheader⟩ := h.live.ask hto call
  refine ⟨hlive, hheader.trans h.header_eq, h.leadsTo, fun kind => ?_⟩
  simp only [lastSet_append]
  by_cases hk : handle.channel.kind = kind
  · -- On the channel that was asked, the call shows what it sets.
    subst hk
    have hshows := (h.shows _).perform (h.live.ready _) hto.channel_eq call
    rw [(h.live.ask_eq hto call).2]
    simp only [if_true, Option.getD_or]
    exact hshows
  · -- On the others, it sets and changes nothing.
    obtain ⟨hwithin, -⟩ := ChannelCall.perform_sound (h.live.ready _) hto.channel_eq call
    simp only [if_neg hk, Option.none_or]
    refine (h.shows kind).congr (hlive.ready kind .display) fun part _ => ?_
    rw [(h.live.ask_eq hto call).2]
    exact ChannelPart.agree_part_of_within hwithin (.inl hk)

/-- **Every step keeps the invariant.** -/
theorem Sound.step (h : Sound segment header u) (use : SegmentUse) : Sound segment header (u.step segment use) := by
  cases use with
  | channel kind => exact h.gain (h.live.leadsTo_channel kind) h.live rfl
  | attach index =>
    rcases ChannelKind.index_or_length_le index with ⟨kind, rfl⟩ | hle
    · simp only [SegmentUsage.step, h.live.attach kind]
      exact h.gain (h.live.leadsTo_mapping _ _ kind) (h.live.mapped _) rfl
    · simp only [SegmentUsage.step, Segment.attach_of_le hle]
      exact h
  | attachClient index =>
    rcases ChannelKind.index_or_length_le index with ⟨kind, rfl⟩ | hle
    · simp only [SegmentUsage.step, h.live.attachClient kind]
      exact h.gain (h.live.leadsTo_mapping _ _ kind) (h.live.mapped _) rfl
    · obtain ⟨-, -, -, hnul⟩ := SharedMemory.checkName_eq_ok_iff.1 h.live.backed.name_ok
      simp only [SegmentUsage.step, Client.attach, Option.bind_some, Utf8.takeWhile_encode hnul, Utf8.decode?_encode,
        Segment.attach_of_le hle]
      exact h
  | clone number =>
    rw [SegmentUsage.step]
    split
    · next handle hfound => exact h.gain (h.leadsTo handle (List.mem_of_getElem? hfound)) h.live rfl
    · exact h
  | ask number call =>
    rw [SegmentUsage.step]
    split
    · next handle hfound => exact h.ask (List.mem_of_getElem? hfound) call
    · exact h

/-- So does any use. -/
theorem Sound.run (h : Sound segment header u) (uses : List SegmentUse) :
    Sound segment header (u.run segment uses) := by
  induction uses generalizing u with
  | nil => exact h
  | cons use rest ih => exact ih (h.step use)

/-- It holds when nobody has used the segment yet. -/
theorem sound_of_create {s s' : SharedMemory} {name : String} {sizes : Sizes}
    (h : Segment.create s name sizes = (.ok segment, s')) :
    Sound segment (segment.bytes s') { shared := s' } := by
  obtain ⟨-, -, hlive, hv, hfresh⟩ := Segment.live_create h
  refine ⟨hlive, .refl _, fun handle hmem => ?_, fun kind => ?_⟩
  · cases hmem
  · exact Channel.shows_of_fresh (hfresh kind)

end SegmentUsage

/-! ## What users notice of each other -/

theorem Channel.run_setDisplay_fst (channel : Channel) (text : String) (m : Memory) :
    ((channel.setDisplay text).run m).1 =
      if (Utf8.encode text).length ≤ Layout.displayCapacity then .ok ()
      else .error (.payloadTooLarge Layout.displayCapacity (Utf8.encode text).length) := by
  by_cases hl : (Utf8.encode text).length ≤ Layout.displayCapacity
  · rw [Channel.run_setDisplay _ hl, if_pos hl]
  · rw [Channel.run_setDisplay_of_lt _ (Nat.not_le.1 hl), if_neg hl]

/-- **Channels and their parts are isolated.** However a new segment is used, through any mix of handles,

* active flag, codec and display selector of a channel are what was set last on that channel, where a display selector
  is taken if it is short enough, and the empty one is none;
* no call changes the answer to a call on another channel, or to one that names other parts of the same channel;
* the header stays as it was created, and all four channels can still be attached to. -/
theorem parts_isolated {s s' : SharedMemory} {name : String} {sizes : Sizes} {segment : Segment}
    (h : Segment.create s name sizes = (.ok segment, s')) (uses : List SegmentUse) :
    let u := SegmentUsage.run segment { shared := s' } uses
    (∀ handle ∈ u.handles,
      (handle.ask .isActive u.shared).1 = (u.lastSet ChannelCall.activeSet? handle.channel.kind).getD false ∧
      (handle.ask .clientIsActive u.shared).1 = (u.lastSet ChannelCall.activeSet? handle.channel.kind).getD false ∧
      (handle.ask .codec u.shared).1 = (u.lastSet ChannelCall.codecSet? handle.channel.kind).getD 0 ∧
      (handle.ask .display u.shared).1 = (u.lastSet ChannelCall.displaySet? handle.channel.kind).filter (· ≠ "") ∧
      ∀ text, (handle.ask (.setDisplay text) u.shared).1 =
        if (Utf8.encode text).length ≤ Layout.displayCapacity then .ok ()
        else .error (.payloadTooLarge Layout.displayCapacity (Utf8.encode text).length)) ∧
    (∀ handle ∈ u.handles, ∀ handle' ∈ u.handles, ∀ {α β : Type} (call : ChannelCall α) (call' : ChannelCall β),
      (handle.channel.kind ≠ handle'.channel.kind ∨ ∀ part ∈ call'.parts, part ∉ call.parts) →
        (handle'.ask call' (handle.ask call u.shared).2).1 = (handle'.ask call' u.shared).1) ∧
    Memory.Agree 0 Segment.headerSize (segment.bytes u.shared) (segment.bytes s') ∧
    ∀ kind : ChannelKind, ∃ handle t, Segment.attach u.shared name kind.index = (.ok handle, t) ∧
      handle.LeadsTo segment kind := by
  intro u
  have hu : SegmentUsage.Sound segment (segment.bytes s') u := (SegmentUsage.sound_of_create h).run uses
  obtain ⟨-, hname, -, -⟩ := Segment.live_create h
  refine ⟨fun handle hmem => ?_, fun handle hmem handle' hmem' {α β} call call' hapart => ?_, hu.header_eq,
    fun kind => ?_⟩
  · have hto := hu.leadsTo handle hmem
    have hshows := hu.shows handle.channel.kind
    generalize handle.channel.kind = kind at hto hshows ⊢
    have hanswer {α : Type} (call : ChannelCall α) := (hu.live.ask_eq hto call).1
    refine ⟨?_, ?_, ?_, ?_, fun text => ?_⟩
    all_goals rw [hanswer]
    all_goals simp only [ChannelCall.perform, Client.isActive, hto.channel_eq]
    · rw [hshows.run_isActive]
    · rw [hshows.run_isActive]
    · rw [hshows.run_codec]
    · rw [hshows.run_display]
      cases u.lastSet ChannelCall.displaySet? kind with
      | none => rfl
      | some text => by_cases ht : text = "" <;> simp [Option.filter_some, ht]
    · exact Channel.run_setDisplay_fst _ _ _
  · exact hu.live.answer_after (hu.leadsTo handle hmem) (hu.leadsTo handle' hmem') call call' hapart
  · rw [← hname]
    exact ⟨_, _, hu.live.attach kind, hu.live.leadsTo_mapping _ _ kind⟩

/-- So it is for two channels whose handles are used in turns. -/
theorem parts_isolated_in_turns :
    ∃ segment s', Segment.create .empty "desk" { queueSize := 1, slotSize := 1, eventSlots := 1 } = (.ok segment, s') ∧
      let u := SegmentUsage.run segment { shared := s' }
        [.channel .video0, .channel .input, .clone 0, .ask 0 (.setDisplay "left"), .ask 1 (.setActive true),
          .ask 2 (.setDisplay ""), .ask 0 (.pushEvent (.idr true)), .ask 2 (.setDisplay "right")]
      ((segment.channel .video0).ask .display u.shared).1 = some "right" ∧
        ((segment.channel .video0).ask .isActive u.shared).1 = false ∧
        ((segment.channel .input).ask .display u.shared).1 = none ∧
        ((segment.channel .input).ask .isActive u.shared).1 = true := by
  obtain ⟨segment, s', h⟩ : ∃ segment s',
      Segment.create .empty "desk" { queueSize := 1, slotSize := 1, eventSlots := 1 } = (.ok segment, s') :=
    Segment.exists_create rfl (Sizes.check_eq_ok_iff.1 rfl) rfl (by decide) (.inl rfl)
  refine ⟨segment, s', h, ?_⟩
  intro u
  obtain ⟨hshown, -, -, -⟩ := parts_isolated h
    [.channel .video0, .channel .input, .clone 0, .ask 0 (.setDisplay "left"), .ask 1 (.setActive true),
      .ask 2 (.setDisplay ""), .ask 0 (.pushEvent (.idr true)), .ask 2 (.setDisplay "right")]
  have hvideo : segment.channel .video0 ∈ u.handles := List.mem_cons_self
  have hinput : segment.channel .input ∈ u.handles := List.mem_cons_of_mem _ List.mem_cons_self
  have hasked : u.asked =
      [⟨.video0, .setDisplay "left"⟩, ⟨.input, .setActive true⟩, ⟨.video0, .setDisplay ""⟩,
        ⟨.video0, .pushEvent (.idr true)⟩, ⟨.video0, .setDisplay "right"⟩] := rfl
  have hvideoLast : u.lastSet ChannelCall.displaySet? .video0 = some "right" ∧
      u.lastSet ChannelCall.activeSet? .video0 = none := by
    simp only [SegmentUsage.lastSet, hasked]
    exact ⟨rfl, rfl⟩
  have hinputLast : u.lastSet ChannelCall.displaySet? .input = none ∧
      u.lastSet ChannelCall.activeSet? .input = some true := by
    simp only [SegmentUsage.lastSet, hasked]
    exact ⟨rfl, rfl⟩
  have hkind (kind : ChannelKind) : (segment.channel kind).channel.kind = kind := rfl
  obtain ⟨hactive, -, -, hdisplay, -⟩ := hshown _ hvideo
  obtain ⟨hactive', -, -, hdisplay', -⟩ := hshown _ hinput
  rw [hkind, hvideoLast.1] at hdisplay
  rw [hkind, hvideoLast.2] at hactive
  rw [hkind, hinputLast.1] at hdisplay'
  rw [hkind, hinputLast.2] at hactive'
  exact ⟨hdisplay, hactive, hdisplay', hactive'⟩

end MediaChannels
