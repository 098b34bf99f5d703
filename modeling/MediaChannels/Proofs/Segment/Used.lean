import MediaChannels.Proofs.Segment.Admission
import MediaChannels.Proofs.Segment.Refusals
import MediaChannels.Proofs.Segment.Rings

/-!
# Segments that are only used as segments

A segment is created, and from then on its bytes change by what is asked of its channels, and by nothing else. This
keeps its header and the sizes of all parts in order, and its lanes hold entries that were appended. The counters of a
lane do not wrap around before `2 ^ 64` calls.

* `ChannelCall.exists_holds_perform`: what a call leaves in a lane, whichever part of the channel it is about.
* `Segment.Used`: an object in which a segment was created and so many calls were made on its channels.
* `Segment.Intact`, `Used.intact`: what holds of such objects.
* `Used.exists_wound`: a lane can be emptied when its counters are anywhere.
* `SharedMemory.OnlySegments`: a table in which names lead to such objects, if anybody can attach to them.
-/

namespace MediaChannels

/-! ## One call and one lane -/

namespace Lane

variable {lane : Lane} {slots : Nat} {taken : UInt64} {entries : List LaneEntry} {m : Memory}

/-- Whoever tries to append leaves at most one entry more. -/
theorem Holds.exists_push (h : lane.Holds slots taken entries m) (tag : UInt32) (value : Int64) :
    ∃ entries', lane.Holds slots taken entries' ((lane.push tag value).run m).2 ∧
      entries'.length ≤ entries.length + 1 := by
  rcases Nat.lt_or_ge entries.length slots with hroom | hfull
  · refine ⟨_, h.push_lapped hroom tag value, Nat.le_of_eq ?_⟩
    rw [List.length_append, length_lapped, List.length_singleton]
  · rw [run_push_of_full h hfull]
    exact ⟨entries, h, Nat.le_succ _⟩

/-- Whoever takes counts no further than there are entries. -/
theorem Holds.exists_take (h : lane.Holds slots taken entries m) (kind : ControlKind) (consume : Bool) :
    ∃ taken' entries', lane.Holds slots taken' entries' ((lane.take kind consume).run m).2 ∧
      taken'.toNat + entries'.length ≤ taken.toNat + entries.length := by
  refine ⟨_, _, h.take kind consume, ?_⟩
  have hle := length_leftover_le kind consume entries
  have hcounter := Nat.mod_le (taken.toNat + (entries.length - (leftover kind consume entries).length)) (2 ^ 64)
  have hdropped := Nat.mod_le (entries.length - (leftover kind consume entries).length) (2 ^ 64)
  rw [UInt64.toNat_add, UInt64.toNat_ofNat', Nat.add_mod_mod]
  omega

/-- What is appended comes behind all that is unread, if the slots go on across the wrap or the counters do not come to
it. -/
theorem Appended.unread_eq_append {m' : Memory} {entry : LaneEntry} (h : lane.Appended slots entry m m')
    (hheld : lane.Holds slots taken entries m) (hkept : slots ∣ 2 ^ 64 ∨ taken.toNat + entries.length < 2 ^ 64) :
    lane.unread slots m' = lane.unread slots m ++ [entry] := by
  refine h.unread_append (hkept.imp_right fun hlt => ?_)
  rw [hheld.unreadCount_eq, hheld.written_eq, UInt64.toNat_add, hheld.toNat_length, Nat.mod_eq_of_lt hlt]
  exact Nat.le_add_left _ _

end Lane

namespace ChannelCall

variable {sizes : Sizes} {hv : sizes.Valid} {kind : ChannelKind} {k : ControlKind} {handle : ChannelHandle}
  {taken : UInt64} {entries : List LaneEntry} {m : Memory} {α : Type}

/-- What pushing an event does is to push its entry. -/
theorem run_pushEvent_snd (hhandle : handle.channel = sizes.channel kind) (event : ControlEvent) (m : Memory) :
    (((pushEvent event).perform handle).run m).2 =
      ((((sizes.channel kind).events.lane event.kind).push event.kind.tag event.value).run m).2 := by
  rw [perform, hhandle]
  exact (sizes.channel kind).events.onLanes_push_snd event m

theorem exists_holds_pushEvent (hhandle : handle.channel = sizes.channel kind) (event : ControlEvent)
    (h : ((sizes.channel kind).events.lane event.kind).Holds sizes.eventSlots taken entries m) :
    ∃ entries', ((sizes.channel kind).events.lane event.kind).Holds sizes.eventSlots taken entries'
        (((pushEvent event).perform handle).run m).2 ∧ entries'.length ≤ entries.length + 1 := by
  rw [run_pushEvent_snd hhandle]
  exact h.exists_push _ _

/-- An event that is pushed into a lane with room is the last one there. -/
theorem holds_pushEvent (hhandle : handle.channel = sizes.channel kind) (event : ControlEvent)
    (h : ((sizes.channel kind).events.lane event.kind).Holds sizes.eventSlots taken entries m)
    (hroom : entries.length < sizes.eventSlots) :
    ((sizes.channel kind).events.lane event.kind).Holds sizes.eventSlots taken
      (Lane.lapped sizes.eventSlots (taken + .ofNat entries.length) entries event.encode ++ [event.encode])
      (((pushEvent event).perform handle).run m).2 := by
  rw [run_pushEvent_snd hhandle]
  exact h.push_lapped hroom event.kind.tag event.value

/-- All other lanes stay as they are. -/
theorem holds_pushEvent_of_ne {kind' : ChannelKind} (hready : ∀ q : ChannelPart, q.Ready hv kind m)
    (hhandle : handle.channel = sizes.channel kind) {event : ControlEvent} (hlane : ¬(kind = kind' ∧ event.kind = k))
    (h : ((sizes.channel kind').events.lane k).Holds sizes.eventSlots taken entries m) :
    ((sizes.channel kind').events.lane k).Holds sizes.eventSlots taken entries
      (((pushEvent event).perform handle).run m).2 := by
  obtain ⟨hwithin, -⟩ := perform_sound hready hhandle (pushEvent event)
  have hapart : kind ≠ kind' ∨ ChannelPart.lane k ∉ (pushEvent event).parts := by
    rw [Ne, ← Decidable.not_and_iff_not_or_not]
    rintro ⟨hkind, hmem⟩
    cases List.mem_singleton.1 hmem
    exact hlane ⟨hkind, rfl⟩
  exact h.congr (ChannelPart.agree_part_of_within hwithin hapart)

/-- **Whatever is called, a lane goes on holding entries**, and its counters come no further than by one. -/
theorem exists_holds_perform (hready : ∀ q : ChannelPart, q.Ready hv kind m)
    (hhandle : handle.channel = sizes.channel kind) (call : ChannelCall α)
    (h : ((sizes.channel kind).events.lane k).Holds sizes.eventSlots taken entries m) :
    ∃ taken' entries', ((sizes.channel kind).events.lane k).Holds sizes.eventSlots taken' entries'
        ((call.perform handle).run m).2 ∧ taken'.toNat + entries'.length ≤ taken.toNat + entries.length + 1 := by
  by_cases hpart : .lane k ∈ call.parts
  · cases call with
    | pushEvent event =>
      cases List.mem_singleton.1 hpart
      obtain ⟨entries', hheld, hle⟩ := exists_holds_pushEvent hhandle event h
      exact ⟨taken, entries', hheld, by omega⟩
    | clientPushEvent tag value =>
      simp only [parts, List.mem_map, Option.mem_toList] at hpart
      obtain ⟨event, hdecode, hkind⟩ := hpart
      cases hkind
      obtain ⟨entries', hheld, hle⟩ := exists_holds_pushEvent hhandle event h
      rw [perform, hhandle] at hheld
      rw [run_clientPushEvent hhandle hdecode]
      exact ⟨taken, entries', hheld, by omega⟩
    | popEvent k' =>
      cases List.mem_singleton.1 hpart
      obtain ⟨taken', entries', hheld, hle⟩ := h.exists_take k true
      rw [perform, hhandle]
      exact ⟨taken', entries', hheld, by omega⟩
    | peekEvent k' =>
      cases List.mem_singleton.1 hpart
      obtain ⟨taken', entries', hheld, hle⟩ := h.exists_take k false
      rw [perform, hhandle]
      exact ⟨taken', entries', hheld, by omega⟩
    | latestEvent k' =>
      cases List.mem_singleton.1 hpart
      rw [perform, hhandle]
      refine ⟨_, [], (EventLanes.run_latest h).2, ?_⟩
      have hcounter := Nat.mod_le (taken.toNat + entries.length) (2 ^ 64)
      rw [UInt64.toNat_add, UInt64.toNat_ofNat', Nat.add_mod_mod, List.length_nil]
      omega
    | pendingEvents k' =>
      rw [perform, hhandle, show ((sizes.channel kind).events.pending k').run m = _ from rfl]
      exact ⟨taken, entries, h, Nat.le_succ _⟩
    | _ => simp [parts] at hpart
  · -- What the call stores, it stores elsewhere.
    obtain ⟨hwithin, -⟩ := perform_sound hready hhandle call
    exact ⟨taken, entries, h.congr (ChannelPart.agree_part_of_within hwithin (.inr hpart)), Nat.le_succ _⟩

end ChannelCall

namespace Segment

/-! ## Segments and calls -/

/-- An object in which a segment with sizes was created, and so many calls were made on its channels since. -/
inductive Used : Sizes → Nat → MemoryObject → Prop where
  | created {s s' : SharedMemory} {name : String} {sizes : Sizes} {segment : Segment}
    (h : create s name sizes = (.ok segment, s')) : Used sizes 0 (s'.object segment.region.object)
  | asked {sizes : Sizes} {calls : Nat} {o : MemoryObject} {handle : ChannelHandle} {kind : ChannelKind} {α : Type}
    (h : Used sizes calls o) (hhandle : handle.channel = sizes.channel kind) (call : ChannelCall α) :
    Used sizes (calls + 1) { o with memory := ((call.perform handle).run o.memory).2 }

/-- What holds of such objects: header, sizes and parts are in order, and as long as the calls have not been too many,
no counter of a lane is above their number. -/
structure Intact (sizes : Sizes) (calls : Nat) (o : MemoryObject) : Prop where
  valid : sizes.Valid
  fits : Layout.of? sizes = some (.of sizes)
  size_eq : o.size = (Layout.of sizes).totalSize
  published : Published sizes o.memory
  ready : ∀ (kind : ChannelKind) (part : ChannelPart), part.Ready valid kind o.memory
  lanes : ∀ (kind : ChannelKind) (k : ControlKind), ∃ taken entries,
    ((sizes.channel kind).events.lane k).Holds sizes.eventSlots taken entries o.memory ∧
      taken.toNat + entries.length ≤ calls

variable {sizes : Sizes} {calls : Nat} {o : MemoryObject} {kind : ChannelKind} {k : ControlKind}

/-- A segment that was just created. -/
theorem intact_create {s s' : SharedMemory} {name : String} {segment : Segment}
    (h : create s name sizes = (.ok segment, s')) : Intact sizes 0 (s'.object segment.region.object) := by
  obtain ⟨rfl, -, hlive, hv, hfresh⟩ := live_create h
  refine ⟨hv, hlive.fits, hlive.backed.size_eq.trans hlive.size_eq, hlive.published, hlive.ready, fun kind k => ?_⟩
  exact ⟨0, [], (hfresh kind (.lane k)).holds, Nat.le_refl _⟩

/-- **A call on a channel leaves a segment intact.** -/
theorem Intact.perform (h : Intact sizes calls o) {handle : ChannelHandle}
    (hhandle : handle.channel = sizes.channel kind) {α : Type} (call : ChannelCall α) :
    Intact sizes (calls + 1) { o with memory := ((call.perform handle).run o.memory).2 } := by
  obtain ⟨hwithin, hready⟩ := ChannelCall.perform_sound (h.ready kind) hhandle call
  refine ⟨h.valid, h.fits, h.size_eq, h.published.congr (ChannelPart.agree_header_of_within hwithin),
    fun kind' part => ?_, fun kind' k => ?_⟩
  · by_cases hkind : kind' = kind
    · rw [hkind]
      exact hready part
    · exact (h.ready kind' part).congr (ChannelPart.agree_part_of_within hwithin (.inl (Ne.symm hkind)))
  · obtain ⟨taken, entries, hheld, hle⟩ := h.lanes kind' k
    by_cases hkind : kind' = kind
    · subst hkind
      obtain ⟨taken', entries', hheld', hle'⟩ := ChannelCall.exists_holds_perform (h.ready kind') hhandle call hheld
      exact ⟨taken', entries', hheld', by omega⟩
    · have hapart : kind ≠ kind' ∨ ChannelPart.lane k ∉ call.parts := .inl (Ne.symm hkind)
      have hheld' := hheld.congr (ChannelPart.agree_part_of_within hwithin hapart)
      exact ⟨taken, entries, hheld', Nat.le_succ_of_le hle⟩

/-- **A segment that is only used as one stays intact.** -/
theorem Used.intact (h : Used sizes calls o) : Intact sizes calls o := by
  induction h with
  | created h => exact intact_create h
  | asked _ hhandle call ih => exact ih.perform hhandle call

namespace Intact

/-- Everybody can attach to its channels. -/
theorem accepts (h : Intact sizes calls o) (kind : ChannelKind) : Accepts sizes kind o.size o.memory :=
  h.published.accepts h.valid h.fits (h.ready kind .packets) (Nat.le_of_eq h.size_eq.symm)

/-- A lane holds what is unread in it. -/
theorem holds_unread (h : Intact sizes calls o) (kind : ChannelKind) (k : ControlKind) :
    ((sizes.channel kind).events.lane k).Holds sizes.eventSlots
      (o.memory.word64 ((sizes.channel kind).events.lane k).readAt)
      (((sizes.channel kind).events.lane k).unread sizes.eventSlots o.memory) o.memory := by
  obtain ⟨taken, entries, hheld, -⟩ := h.lanes kind k
  rw [hheld.unread_eq, hheld.taken_eq]
  exact hheld

/-- No counter of a lane comes further than by one with every call, as long as it does not wrap around. -/
theorem counter_le (h : Intact sizes calls o) (kind : ChannelKind) (k : ControlKind) :
    (o.memory.word64 ((sizes.channel kind).events.lane k).readAt).toNat +
      ((sizes.channel kind).events.lane k).unreadCount o.memory ≤ calls := by
  obtain ⟨taken, entries, hheld, hle⟩ := h.lanes kind k
  rwa [hheld.taken_eq, hheld.unreadCount_eq]

end Intact

/-! ## Lanes whose counters are anywhere -/

/-- After an event was appended to an empty lane and taken out again, the lane is empty, and its counters are one
further. -/
theorem Used.round (h : Used sizes calls o) (event : EventOf k) {taken : UInt64}
    (hempty : ((sizes.channel kind).events.lane k).Holds sizes.eventSlots taken [] o.memory) :
    ∃ o', Used sizes (calls + 2) o' ∧
      ((sizes.channel kind).events.lane k).Holds sizes.eventSlots (taken + 1) [] o'.memory := by
  let handle : ChannelHandle := { region := ⟨0, 0, 0, "", false⟩, channel := sizes.channel kind }
  have hhandle : handle.channel = sizes.channel kind := rfl
  have hcarries : LaneTurn.Carries (sizes.channel kind).events o.memory (taken, ([] : List (EventOf k))) := hempty
  have hring : (LaneTurn.push event).onRing (sizes.channel kind).events.slots (taken, []) =
      (.pushed (.ok ()), (taken, [event])) := by
    refine (if_neg (Nat.not_le.2 hempty.slots_pos)).trans ?_
    rw [Lane.lapped_of_le _ _ _ _ (Nat.zero_le _)]
    rfl
  have hpushed := (LaneTurn.onLane_step (.push event) hcarries).2
  rw [hring] at hpushed
  have hpopped := (LaneTurn.onLane_step .pop hpushed).2
  exact ⟨_, (h.asked hhandle (.pushEvent event.1)).asked hhandle (.popEvent k), hpopped⟩

/-- **An unused segment comes to where a lane is empty and its counters are at a given number.** -/
theorem Used.exists_wound (h : Used sizes 0 o) (kind : ChannelKind) (event : EventOf k) (rounds : Nat) :
    ∃ calls o', Used sizes calls o' ∧
      ((sizes.channel kind).events.lane k).Holds sizes.eventSlots (.ofNat rounds) [] o'.memory := by
  induction rounds with
  | zero =>
    obtain ⟨taken, entries, hheld, hle⟩ := h.intact.lanes kind k
    obtain ⟨htaken, hentries⟩ := Nat.add_eq_zero_iff.1 (Nat.le_zero.1 hle)
    obtain rfl : taken = 0 := UInt64.toNat_inj.1 htaken
    obtain rfl : entries = [] := List.eq_nil_of_length_eq_zero hentries
    exact ⟨0, o, h, hheld⟩
  | succ rounds ih =>
    obtain ⟨calls, o', hused, hheld⟩ := ih
    obtain ⟨o'', hused', hheld'⟩ := hused.round event hheld
    rw [UInt64.ofNat_add]
    exact ⟨calls + 2, o'', hused', hheld'⟩

end Segment

/-! ## Tables of segments -/

/-- Every segment to which somebody can attach was created, and is only used since then. -/
def SharedMemory.OnlySegments (s : SharedMemory) : Prop :=
  ∀ (name : String) (index : Nat) (handle : ChannelHandle), (Segment.attach s name index).1 = .ok handle →
    ∃ sizes calls, Segment.Used sizes calls (s.object handle.region.object)

namespace Segment

variable {s s' : SharedMemory} {name : String} {sizes : Sizes} {calls index : Nat} {kind : ChannelKind}
  {handle : ChannelHandle} {o : MemoryObject}

/-- What attaching leads to depends on what the name stands for, and on nothing else. -/
theorem attach_congr (hfind : s'.find? name = s.find? name)
    (hobject : ∀ number, s.find? name = some (.object number) → s'.object number = s.object number) (index : Nat) :
    (attach s' name index).1.map (fun handle => (handle.region.object, handle.channel)) =
      (attach s name index).1.map fun handle => (handle.region.object, handle.channel) := by
  simp only [attach, SharedMemory.openRegion, SharedMemory.map, hfind]
  cases ChannelKind.ofIndex index with
  | error e => rfl
  | ok kind =>
    cases SharedMemory.checkName name with
    | error e => rfl
    | ok =>
      cases hfound : s.find? name with
      | none => rfl
      | some entry =>
        cases entry with
        | blocked => rfl
        | object number =>
          simp only [hobject number hfound]
          by_cases hzero : (s.object number).size = 0
          · simp only [hzero, if_true]
          by_cases hlarge : SharedMemory.addressSpace < (s.object number).size
          · simp only [hzero, hlarge, if_true, if_false]
          simp only [hzero, hlarge, if_false, hobject number hfound]
          rcases (verify name (s.object number).size kind).run (s.object number).memory with ⟨e | channel, m⟩
          · rfl
          · rfl

/-- Whoever attaches has mapped the object that the name stands for, and that is all that has changed. -/
theorem mapped_of_attach (h : attach s name index = (.ok handle, s')) :
    s.find? name = some (.object handle.region.object) ∧ handle.region.object < s.objects.size ∧
      s' = { s with mappings := s.mappings + 1 } := by
  have hopen := openRegion_of_attach h
  unfold SharedMemory.openRegion at hopen
  split at hopen
  · cases hopen
  split at hopen
  · cases hopen
  · cases hopen
  next hfound =>
  split at hopen
  · cases hopen
  obtain ⟨hlt, -, -, hregion, rfl⟩ := SharedMemory.eq_of_map hopen
  rw [hregion]
  exact ⟨hfound, hlt, rfl⟩

/-- The sizes of a segment can be read from it. -/
theorem Used.sizes_eq {calls' : Nat} {sizes' : Sizes} (h : Used sizes calls o) (h' : Used sizes' calls' o) :
    sizes' = sizes :=
  congrArg Prod.fst
    ((h'.intact.accepts .video0).run_readSizes.symm.trans (h.intact.accepts .video0).run_readSizes)

/-- Whoever attaches to a segment finds the channel with the index. -/
theorem Used.channel_eq (h : Used sizes calls (s.object handle.region.object))
    (hattach : attach s name kind.index = (.ok handle, s')) : handle.channel = sizes.channel kind := by
  obtain ⟨-, -, rfl⟩ := mapped_of_attach hattach
  obtain ⟨kind', sizes', hindex, hchannel, haccepts⟩ := attach_eq_ok hattach
  replace haccepts : Accepts sizes' kind' handle.region.size (s.object handle.region.object).memory := haccepts
  obtain rfl : sizes' = sizes :=
    congrArg Prod.fst (haccepts.run_readSizes.symm.trans (h.intact.accepts kind').run_readSizes)
  have hofIndex := congrArg ChannelKind.ofIndex hindex
  rw [ChannelKind.ofIndex_index, ChannelKind.ofIndex_index] at hofIndex
  cases hofIndex
  exact hchannel

end Segment

namespace SharedMemory

/-- Where names lead to the same objects as before or to segments, there are only segments. -/
theorem OnlySegments.of_find {s t : SharedMemory} (h : s.OnlySegments)
    (ht : ∀ name number, t.find? name = some (.object number) →
      (s.find? name = some (.object number) ∧ t.object number = s.object number) ∨
        ∃ sizes calls, Segment.Used sizes calls (t.object number)) : t.OnlySegments := by
  intro name index handle hattach
  obtain ⟨hfound, -⟩ := Segment.mapped_of_attach (Prod.ext hattach rfl)
  rcases ht name _ hfound with ⟨hfound', hsame⟩ | hused
  · have hwas := Segment.attach_congr (hfound.trans hfound'.symm) (fun number hnumber => by
      rw [hfound'] at hnumber
      cases hnumber
      exact hsame) index
    rw [hattach] at hwas
    cases hattach' : (Segment.attach s name index).1 with
    | error e =>
      rw [hattach'] at hwas
      cases hwas
    | ok handle' =>
      rw [hattach'] at hwas
      have hobject : handle.region.object = handle'.region.object := congrArg Prod.fst (Except.ok.inj hwas)
      rw [hsame, hobject]
      exact h name index handle' hattach'
  · exact hused

theorem onlySegments_empty : empty.OnlySegments := by
  intro name index handle hattach
  obtain ⟨hfound, -⟩ := Segment.mapped_of_attach (Prod.ext hattach rfl)
  cases hfound

/-- **Creating a segment leaves a table of segments**, whatever the name led to before. -/
theorem OnlySegments.create {s s' : SharedMemory} (h : s.OnlySegments) (hs : s.Regular) {name : String} {sizes : Sizes}
    {segment : Segment} (hcreate : Segment.create s name sizes = (.ok segment, s')) : s'.OnlySegments := by
  obtain ⟨htouches, -⟩ := Segment.carries_create hs hcreate
  refine h.of_find fun other number hfound => ?_
  by_cases hnumber : number = segment.region.object
  · rw [hnumber]
    exact .inr ⟨sizes, 0, .created hcreate⟩
  · have hother : other ≠ name := by
      rintro rfl
      rw [htouches.named] at hfound
      cases hfound
      exact hnumber rfl
    rw [htouches.others other hother] at hfound
    exact .inl ⟨hfound, htouches.objects number hnumber⟩

/-- An object can become a segment. -/
theorem OnlySegments.setObject {s : SharedMemory} (h : s.OnlySegments) {number : Nat} (hlt : number < s.objects.size)
    {sizes : Sizes} {calls : Nat} {o : MemoryObject} (hused : Segment.Used sizes calls o) :
    (s.setObject number o).OnlySegments := by
  refine h.of_find fun name other hfound => ?_
  by_cases hother : number = other
  · rw [← hother, object_setObject_self _ _ hlt]
    exact .inr ⟨sizes, calls, hused⟩
  · rw [object_setObject_of_ne _ _ hother]
    exact .inl ⟨hfound, rfl⟩

end SharedMemory

end MediaChannels
