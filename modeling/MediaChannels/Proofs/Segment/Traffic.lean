import MediaChannels.Proofs.PacketRing.Consumers
import MediaChannels.Proofs.Segment.Admission
import MediaChannels.Proofs.Segment.Rings

/-!
# Segments in use, and created again

Segments are created under any names, also again while handles of an older one are in use; handles are taken from them
or attached by name; packets are pushed, and consumers walk, through any handles. Creating a segment again clears the
memory that the older handles lead to, so their streams start anew.

* `Traffic.turn`, `Traffic.run`: what users do, and what is remembered of it.
* `Traffic.Grows`: what is remembered is not taken back, except when a segment is created again.
* `Traffic.Stored`: the invariant of memory, with one lemma for each operation on it.
* `Traffic.Sound`, `Sound.turn`, `Sound.run`: the invariant of memory and users.
* `Traffic.cursors_never_pass`: what follows for write indices and consumers.
* `Traffic.writeIndex_decreases_when_created_again`: creating again takes write indices back.
-/

namespace MediaChannels

/-! ## Turns -/

/-- What somebody does next with named segments, their channels, and consumers. -/
inductive TrafficTurn where
  | create (name : String)
  /-- Takes the handle of a channel from a segment. -/
  | channel (segment : Nat) (kind : ChannelKind)
  | attach (name : String) (index : Nat)
  | push (handle : Nat) (packet : Packet)
  /-- A consumer starts at cursor zero. -/
  | consume (handle : Nat)
  | poll (consumer : Nat)
  | next (consumer : Nat)
  /-- The last user of the mapping with which a segment was created is gone. -/
  | release (segment : Nat)

/-- The turn publishes a packet. -/
def TrafficTurn.isPush : TrafficTurn → Bool
  | push _ _ => true
  | _ => false

/-- What is remembered of an object: for which name segments were created in it, how many, and what has been published
since the last of them was created. -/
structure SegmentLife where
  name : String := ""
  creations : Nat := 0
  published : ChannelKind → List Packet := fun _ => []

/-- A consumer of a channel, and how many segments had been created in its object when it started. -/
structure ChannelConsumer where
  handle : ChannelHandle
  creations : Nat
  consumer : PacketConsumer := {}

/-- Shared memory, with all segments, handles and consumers in the order in which they came. -/
structure Traffic where
  shared : SharedMemory := .empty
  segments : List Segment := []
  handles : List ChannelHandle := []
  consumers : List ChannelConsumer := []
  lives : Nat → SegmentLife := fun _ => {}

namespace SegmentLife

/-- One more segment is created in the object. -/
def create (l : SegmentLife) (name : String) : SegmentLife := { name, creations := l.creations + 1 }

/-- One more packet is published on a channel. -/
def publish (l : SegmentLife) (kind : ChannelKind) (packet : Packet) : SegmentLife :=
  { l with published := fun k => if k = kind then l.published k ++ [packet] else l.published k }

end SegmentLife

namespace Traffic

/-- What is remembered of the object of a handle. -/
def life (t : Traffic) (handle : ChannelHandle) : SegmentLife := t.lives handle.region.object

/-- What has been published on the channel of a handle since its segment was created last. -/
def published (t : Traffic) (handle : ChannelHandle) : List Packet := (t.life handle).published handle.channel.kind

/-- The write index that a handle reports. -/
def writeIndex (t : Traffic) (handle : ChannelHandle) : Nat := (handle.ask .writeIndex t.shared).1.toNat

theorem ask_writeIndex (handle : ChannelHandle) (s : SharedMemory) :
    (handle.ask .writeIndex s).1 = (s.object handle.region.object).memory.word64 handle.channel.packets.base := by
  simp only [ChannelHandle.ask, SharedMemory.access, ChannelCall.perform, PacketRing.run_writeIndex]

/-- Something new is remembered of an object. -/
def remember (t : Traffic) (object : Nat) (life : SegmentLife) : Traffic :=
  { t with lives := fun o => if o = object then life else t.lives o }

/-- One turn. All segments of one name have the same sizes. -/
def turn (sizesOf : String → Sizes) (t : Traffic) : TrafficTurn → Traffic
  | .create name =>
    match Segment.create t.shared name (sizesOf name) with
    | (.ok segment, shared) =>
      { t with shared, segments := t.segments ++ [segment] }.remember segment.region.object
        ((t.lives segment.region.object).create name)
    | (.error _, shared) => { t with shared }
  | .channel number kind =>
    match t.segments[number]? with
    | some segment => { t with handles := t.handles ++ [segment.channel kind] }
    | none => t
  | .attach name index =>
    match Segment.attach t.shared name index with
    | (.ok handle, shared) => { t with shared, handles := t.handles ++ [handle] }
    | (.error _, shared) => { t with shared }
  | .push number packet =>
    match t.handles[number]? with
    | some handle =>
      match handle.ask (.pushPacket packet) t.shared with
      | (.ok _, shared) =>
        { t with shared }.remember handle.region.object ((t.life handle).publish handle.channel.kind packet)
      | (.error _, shared) => { t with shared }
    | none => t
  | .consume number =>
    match t.handles[number]? with
    | some handle => { t with consumers := t.consumers ++ [{ handle, creations := (t.life handle).creations }] }
    | none => t
  | .poll number =>
    match t.consumers[number]? with
    | some c =>
      let (walk, shared) := c.handle.ask (.pollPackets c.consumer.walk.cursor) t.shared
      { t with shared, consumers := t.consumers.set number { c with consumer := c.consumer.begin walk } }
    | none => t
  | .next number =>
    match t.consumers[number]? with
    | some c =>
      let ((packet, walk), shared) := c.handle.ask (.nextPacket c.consumer.walk) t.shared
      { t with shared, consumers := t.consumers.set number { c with consumer := c.consumer.receive packet walk } }
    | none => t
  | .release number =>
    match t.segments[number]? with
    | some segment => { t with shared := t.shared.release segment.region }
    | none => t

theorem lives_remember_self (t : Traffic) (o : Nat) (life : SegmentLife) : (t.remember o life).lives o = life :=
  if_pos rfl

theorem lives_remember_of_ne (t : Traffic) {o o' : Nat} (h : o' ≠ o) (life : SegmentLife) :
    (t.remember o life).lives o' = t.lives o' := if_neg h

/-- All turns, one after the other. -/
def run (sizesOf : String → Sizes) (t : Traffic) (turns : List TrafficTurn) : Traffic := turns.foldl (turn sizesOf) t

variable {sizesOf : String → Sizes} {pushes : Nat} {t t' u : Traffic} {name : String} {handle : ChannelHandle}
  {packet : Packet} {shared : SharedMemory}

/-! ## Users -/

/-- A handle leads to a channel of the segment that its object carries. -/
def Leads (sizesOf : String → Sizes) (t : Traffic) (handle : ChannelHandle) : Prop :=
  0 < (t.life handle).creations ∧ handle.channel = (sizesOf (t.life handle).name).channel handle.channel.kind

/-- A packet that is pushed goes to the ring of the channel. -/
theorem Leads.ask_push (h : t.Leads sizesOf handle) (packet : Packet) :
    handle.ask (.pushPacket packet) t.shared =
      let object := t.shared.object handle.region.object
      let result := (((sizesOf (t.life handle).name).channel handle.channel.kind).packets.push packet).run object.memory
      (result.1, t.shared.setObject handle.region.object { object with memory := result.2 }) := by
  have hpackets := congrArg Channel.packets h.2
  simp only [ChannelHandle.ask, ChannelCall.perform]
  rw [hpackets]
  rfl

/-- A consumer accounts for what was published on its channel, unless the segment was created again. -/
def Follows (sizesOf : String → Sizes) (t : Traffic) (c : ChannelConsumer) : Prop :=
  t.Leads sizesOf c.handle ∧ c.creations ≤ (t.life c.handle).creations ∧
    (c.creations = (t.life c.handle).creations → c.consumer.Accounts (t.published c.handle))

/-- Handles are kept, and what is remembered of objects grows: nothing is taken back until a segment is created again,
and then under the same name. -/
structure Grows (t t' : Traffic) : Prop where
  handles : ∀ handle ∈ t.handles, handle ∈ t'.handles
  name_eq : ∀ o, 0 < (t.lives o).creations → (t'.lives o).name = (t.lives o).name
  creations_le : ∀ o, (t.lives o).creations ≤ (t'.lives o).creations
  published : ∀ o, (t.lives o).creations = (t'.lives o).creations →
    ∀ kind, (t.lives o).published kind <+: (t'.lives o).published kind

namespace Grows

/-- Nothing new is remembered. -/
theorem of_lives_eq (hlives : t'.lives = t.lives) (hhandles : ∀ handle ∈ t.handles, handle ∈ t'.handles) :
    t.Grows t' := by
  refine ⟨hhandles, ?_, ?_, ?_⟩
  · intro o _
    rw [hlives]
  · intro o
    exact hlives ▸ Nat.le_refl _
  · intro o _ kind
    exact hlives ▸ List.prefix_refl _

/-- Something new is remembered of one object. -/
theorem remember (hlives : t'.lives = t.lives) (hhandles : ∀ handle ∈ t.handles, handle ∈ t'.handles) {object : Nat}
    {life : SegmentLife} (hname : 0 < (t.lives object).creations → life.name = (t.lives object).name)
    (hle : (t.lives object).creations ≤ life.creations)
    (hpublished : (t.lives object).creations = life.creations →
      ∀ kind, (t.lives object).published kind <+: life.published kind) : t.Grows (t'.remember object life) := by
  have hself := lives_remember_self t' object life
  have hother {o : Nat} (ho : o ≠ object) : (t'.remember object life).lives o = t.lives o :=
    (lives_remember_of_ne t' ho life).trans (congrFun hlives o)
  refine ⟨hhandles, fun o => ?_, fun o => ?_, fun o => ?_⟩
  · by_cases ho : o = object
    · subst ho
      rw [hself]
      exact hname
    · rw [hother ho]
      exact fun _ => rfl
  · by_cases ho : o = object
    · subst ho
      rw [hself]
      exact hle
    · exact hother ho ▸ Nat.le_refl _
  · by_cases ho : o = object
    · subst ho
      rw [hself]
      exact hpublished
    · rw [hother ho]
      exact fun _ _ => List.prefix_refl _

theorem trans (h : t.Grows t') (h' : t'.Grows u) : t.Grows u := by
  refine ⟨fun handle hmem => h'.handles handle (h.handles handle hmem), ?_, ?_, ?_⟩
  · intro o ho
    rw [h'.name_eq o (Nat.lt_of_lt_of_le ho (h.creations_le o)), h.name_eq o ho]
  · intro o
    exact Nat.le_trans (h.creations_le o) (h'.creations_le o)
  · intro o ho kind
    have hle := h.creations_le o
    have hle' := h'.creations_le o
    exact (h.published o (by omega) kind).trans (h'.published o (by omega) kind)

theorem leads (h : t.Grows t') (hto : t.Leads sizesOf handle) : t'.Leads sizesOf handle := by
  obtain ⟨hpos, hchannel⟩ := hto
  refine ⟨Nat.lt_of_lt_of_le hpos (h.creations_le _), ?_⟩
  rw [life, h.name_eq _ hpos]
  exact hchannel

theorem follows (h : t.Grows t') {c : ChannelConsumer} (hc : t.Follows sizesOf c) : t'.Follows sizesOf c := by
  obtain ⟨hto, hle, haccounts⟩ := hc
  have hle' := h.creations_le c.handle.region.object
  refine ⟨h.leads hto, Nat.le_trans hle hle', fun heq => ?_⟩
  have hsame : (t.life c.handle).creations = (t'.life c.handle).creations := Nat.le_antisymm hle' (heq ▸ hle)
  exact (haccounts (heq.trans hsame.symm)).mono (h.published _ hsame _)

end Grows

/-! ## Memory -/

/-- The memory of segments is in order, and names lead to segments that were created for them. -/
structure Stored (sizesOf : String → Sizes) (t : Traffic) : Prop where
  regular : t.shared.Regular
  carries : ∀ o, 0 < (t.lives o).creations → o < t.shared.objects.size ∧
    Segment.Carries (sizesOf (t.lives o).name) (t.lives o).published (t.shared.object o)
  named : ∀ name o, t.shared.find? name = some (.object o) →
    0 < (t.lives o).creations ∧ (t.lives o).name = name ∨ (t.lives o).creations = 0 ∧ t.shared.Shut name

namespace Stored

/-- A handle leads to an object that carries a segment. -/
theorem of_leads (h : t.Stored sizesOf) (hto : t.Leads sizesOf handle) :
    handle.region.object < t.shared.objects.size ∧
      Segment.Carries (sizesOf (t.life handle).name) (t.life handle).published
        (t.shared.object handle.region.object) := h.carries _ hto.1

/-- The ring of a handle publishes what was published. -/
theorem healthy (h : t.Stored sizesOf) (hto : t.Leads sizesOf handle) :
    ∃ g, handle.channel.packets.Healthy g (t.published handle)
      (t.shared.object handle.region.object).memory := by
  obtain ⟨-, hcarries⟩ := h.of_leads hto
  refine ⟨hcarries.valid.geometry, ?_⟩
  rw [hto.2]
  exact hcarries.healthy _

/-- A handle reports how much was published. -/
theorem writeIndex_eq (h : t.Stored sizesOf) (hto : t.Leads sizesOf handle) :
    t.writeIndex handle = (t.published handle).length := by
  obtain ⟨g, hring⟩ := h.healthy hto
  rw [writeIndex, ask_writeIndex]
  exact hring.holds.toNat_writeIndex

/-! ### Creating and releasing -/

/-- Only the objects of segments matter. -/
theorem reshare (h : t.Stored sizesOf) (hregular : shared.Regular)
    (hsize : t.shared.objects.size ≤ shared.objects.size)
    (hkept : ∀ o, 0 < (t.lives o).creations → shared.object o = t.shared.object o)
    (hnamed : ∀ name o, shared.find? name = some (.object o) →
      0 < (t.lives o).creations ∧ (t.lives o).name = name ∨ (t.lives o).creations = 0 ∧ shared.Shut name) :
    Stored sizesOf { t with shared } := by
  refine ⟨hregular, fun o ho => ?_, hnamed⟩
  obtain ⟨hlt, hcarries⟩ := h.carries o ho
  exact ⟨Nat.lt_of_lt_of_le hlt hsize, (hkept o ho).symm ▸ hcarries⟩

/-- No segment was ever created in an object that does not exist. -/
theorem creations_eq_zero (h : t.Stored sizesOf) {o : Nat} (ho : t.shared.objects.size ≤ o) :
    (t.lives o).creations = 0 := by
  apply Nat.eq_zero_of_not_pos
  intro hpos
  exact Nat.not_lt.2 ho (h.carries o hpos).1

/-- An object that a name leads to has been used for this name only. -/
theorem name_eq (h : t.Stored sizesOf) {o : Nat} (htouches : t.shared.Touches name o shared)
    (ho : 0 < (t.lives o).creations) : (t.lives o).name = name := by
  rcases htouches.origin with hold | ⟨-, hnew⟩
  · rcases h.named _ _ hold with ⟨-, hname⟩ | ⟨hzero, -⟩
    · exact hname
    · omega
  · have hzero := h.creations_eq_zero (Nat.le_of_eq hnew.symm)
    omega

/-- A name cannot be opened as long as no segment was created in its object. -/
theorem shut_of_touches (h : t.Stored sizesOf) {o : Nat} (htouches : t.shared.Touches name o shared)
    (hzero : (t.lives o).creations = 0) : t.shared.Shut name := by
  rcases htouches.origin with hold | ⟨hnone, -⟩
  · rcases h.named _ _ hold with ⟨hpos, -⟩ | ⟨-, hshut⟩
    · omega
    · exact hshut
  · intro o' ho'
    rw [hnone] at ho'
    cases ho'

/-- A region that could not be created does no harm. -/
theorem touched (h : t.Stored sizesOf) {o : Nat} (htouches : t.shared.Touches name o shared)
    (hkept : shared.object o = t.shared.object o ∨ (t.lives o).creations = 0 ∧ shared.Shut name) :
    Stored sizesOf { t with shared } := by
  refine h.reshare (htouches.regular h.regular) htouches.size_le ?_ ?_
  · intro o' ho'
    by_cases heq : o' = o
    · subst heq
      rcases hkept with hkept | ⟨hzero, -⟩
      · exact hkept
      · omega
    · exact htouches.objects o' heq
  · intro other o' ho'
    by_cases hother : other = name
    · subst hother
      rw [htouches.named] at ho'
      cases ho'
      rcases Nat.eq_zero_or_pos (t.lives o).creations with hzero | hpos
      · refine .inr ⟨hzero, ?_⟩
        rcases hkept with hkept | ⟨-, hshut⟩
        · exact (h.shut_of_touches htouches hzero).kept h.regular htouches hkept
        · exact hshut
      · exact .inl ⟨hpos, h.name_eq htouches hpos⟩
    · rw [htouches.others other hother] at ho'
      exact (h.named _ _ ho').imp_right fun hshut =>
        ⟨hshut.1, hshut.2.touched h.regular htouches hother⟩

/-- A segment that could not be created does no harm: where one was created before, its size is one that can be had. -/
theorem create_error (h : t.Stored sizesOf) {e : Error}
    (hcreate : Segment.create t.shared name (sizesOf name) = (.error e, shared)) :
    Stored sizesOf { t with shared } := by
  rcases Segment.create_eq_error hcreate with rfl | hregion
  · exact h
  cases h.regular.creation hregion with
  | refused => exact h
  | notResized htouches hkept => exact h.touched htouches (.inl hkept)
  | @notMapped o _ _ htouches hsize hroom =>
    refine h.touched htouches (.inr ⟨Nat.eq_zero_of_not_pos fun hpos => ?_, htouches.shut (hsize ▸ hroom)⟩)
    obtain ⟨-, hcarries⟩ := h.carries o hpos
    rw [h.name_eq htouches hpos] at hcarries
    have hfits := hcarries.size_eq
    have hsome := hcarries.size_pos
    have hle := hcarries.size_le
    omega

/-- **A segment that was created has published nothing**, and was created for its name. -/
theorem create (h : t.Stored sizesOf) {segment : Segment} {segments : List Segment}
    (hcreate : Segment.create t.shared name (sizesOf name) = (.ok segment, shared)) :
    Stored sizesOf ({ t with shared, segments }.remember segment.region.object
      ((t.lives segment.region.object).create name)) := by
  obtain ⟨htouches, hcarries⟩ := Segment.carries_create h.regular hcreate
  constructor
  · exact htouches.regular h.regular
  · intro o ho
    by_cases heq : o = segment.region.object
    · subst heq
      rw [lives_remember_self]
      exact ⟨htouches.object_lt, hcarries⟩
    · rw [lives_remember_of_ne _ heq] at ho ⊢
      obtain ⟨hlt, hold⟩ := h.carries o ho
      exact ⟨Nat.lt_of_lt_of_le hlt htouches.size_le, (htouches.objects o heq).symm ▸ hold⟩
  · intro other o ho
    by_cases hname : other = name
    · subst hname
      obtain rfl : segment.region.object = o := by simpa using htouches.named.symm.trans ho
      rw [lives_remember_self]
      exact .inl ⟨Nat.succ_pos _, rfl⟩
    · replace ho : t.shared.find? other = some (.object o) := (htouches.others other hname).symm.trans ho
      have hne : o ≠ segment.region.object := by
        rintro rfl
        exact hname (htouches.name_eq h.regular ho)
      rw [lives_remember_of_ne _ hne]
      exact (h.named other o ho).imp_right fun hshut =>
        ⟨hshut.1, hshut.2.touched h.regular htouches hname⟩

/-- Releasing a region only takes names away. -/
theorem release (h : t.Stored sizesOf) (region : Region) :
    Stored sizesOf { t with shared := t.shared.release region } := by
  refine h.reshare (h.regular.release region) (by simp) ?_ ?_
  · intro o _
    exact SharedMemory.object_release _ _
  · intro name o ho
    obtain ⟨hold, -⟩ := SharedMemory.find?_of_release ho
    exact (h.named name o hold).imp_right fun hshut => ⟨hshut.1, hshut.2.release region⟩

/-! ### Attaching and publishing -/

/-- **Whoever attaches gets a handle of the segment that was created for the name.** -/
theorem attach (h : t.Stored sizesOf) {index : Nat}
    (hattach : Segment.attach t.shared name index = (.ok handle, shared)) :
    t.Leads sizesOf handle ∧ Stored sizesOf { t with shared } := by
  have hopen := Segment.openRegion_of_attach hattach
  obtain ⟨hnamed, -⟩ := SharedMemory.of_openRegion hopen
  obtain ⟨mappings, hshared⟩ := SharedMemory.openRegion_snd t.shared name
  rw [hopen] at hshared
  dsimp only at hshared
  subst hshared
  have hstored : Stored sizesOf { t with shared := { t.shared with mappings } } :=
    h.reshare (h.regular.congr (fun _ => rfl) rfl) (Nat.le_refl _) (fun _ _ => rfl) h.named
  refine ⟨?_, hstored⟩
  rcases h.named _ _ hnamed with ⟨hpos, hname⟩ | ⟨-, hshut⟩
  · obtain ⟨-, hcarries⟩ := h.carries _ hpos
    obtain ⟨kind, sizes, -, hchannel, haccepts⟩ := Segment.attach_eq_ok hattach
    obtain rfl := hcarries.sizes_eq haccepts
    refine ⟨hpos, ?_⟩
    rw [hchannel]
    rfl
  · obtain ⟨e, herror⟩ := hshut.openRegion
    rw [herror] at hopen
    cases hopen

/-- **A packet that is not refused is published.** -/
theorem push (h : t.Stored sizesOf) (hto : t.Leads sizesOf handle) (hroom : (t.published handle).length + 1 < 2 ^ 64)
    {index : UInt64} (hpush : handle.ask (.pushPacket packet) t.shared = (.ok index, shared)) :
    Stored sizesOf ({ t with shared }.remember handle.region.object
      ((t.life handle).publish handle.channel.kind packet)) := by
  obtain ⟨hlt, hcarries⟩ := h.of_leads hto
  rw [hto.ask_push] at hpush
  obtain ⟨hindex, rfl⟩ := Prod.mk.inj hpush
  have hfits : packet.data.length ≤ (sizesOf (t.life handle).name).slotSize := by
    apply Nat.le_of_not_lt
    intro hlarge
    rw [hcarries.push_of_too_large _ hlarge] at hindex
    cases hindex
  obtain ⟨-, hpushed⟩ := hcarries.push hfits hroom
  have hother {o : Nat} (ho : o ≠ handle.region.object) (object : MemoryObject) :
      (t.shared.setObject handle.region.object object).object o = t.shared.object o :=
    SharedMemory.object_setObject_of_ne _ _ (Ne.symm ho)
  constructor
  · exact h.regular.congr (fun _ => rfl) (SharedMemory.size_setObject _ _ _)
  · intro o ho
    by_cases heq : o = handle.region.object
    · subst heq
      rw [lives_remember_self]
      refine ⟨?_, ?_⟩
      · exact (SharedMemory.size_setObject _ _ _).symm ▸ hlt
      · exact (SharedMemory.object_setObject_self _ _ hlt).symm ▸ hpushed
    · rw [lives_remember_of_ne _ heq] at ho ⊢
      obtain ⟨hlt', hold⟩ := h.carries o ho
      exact ⟨(SharedMemory.size_setObject _ _ _).symm ▸ hlt', (hother heq _).symm ▸ hold⟩
  · intro name o ho
    have hold : t.shared.find? name = some (.object o) := ho
    by_cases heq : o = handle.region.object
    · subst heq
      rw [lives_remember_self]
      refine .inl ⟨hto.1, ?_⟩
      rcases h.named _ _ hold with ⟨-, hname⟩ | ⟨hzero, -⟩
      · exact hname
      · exact absurd hto.1 (Nat.not_lt.2 (Nat.le_of_eq hzero))
    · rw [lives_remember_of_ne _ heq]
      refine (h.named _ _ hold).imp_right fun hshut => ⟨hshut.1, hshut.2.congr rfl fun o' ho' => hother ?_ _⟩
      rw [hold] at ho'
      cases ho'
      exact heq

/-- A packet that is refused changes nothing. -/
theorem push_error (h : t.Stored sizesOf) (hto : t.Leads sizesOf handle) {e : Error}
    (hpush : handle.ask (.pushPacket packet) t.shared = (.error e, shared)) : shared = t.shared := by
  obtain ⟨-, hcarries⟩ := h.of_leads hto
  rw [hto.ask_push] at hpush
  obtain ⟨hrefused, rfl⟩ := Prod.mk.inj hpush
  have hlarge : (sizesOf (t.life handle).name).slotSize < packet.data.length := by
    apply Nat.lt_of_not_le
    intro hfits
    rw [PacketRing.run_push (hcarries.healthy _).setUp hfits] at hrefused
    cases hrefused
  rw [hcarries.push_of_too_large _ hlarge]
  exact SharedMemory.setObject_object _ _

end Stored

/-! ## Every turn -/

/-- Memory is in order, and so are all users, if so many packets are still to come. -/
structure Sound (sizesOf : String → Sizes) (pushes : Nat) (t : Traffic) : Prop where
  stored : t.Stored sizesOf
  segments : ∀ segment ∈ t.segments, ∀ kind, t.Leads sizesOf (segment.channel kind)
  handles : ∀ handle ∈ t.handles, t.Leads sizesOf handle
  consumers : ∀ c ∈ t.consumers, t.Follows sizesOf c
  room : ∀ o kind, ((t.lives o).published kind).length + pushes < 2 ^ 64

namespace Sound

/-- Nothing has happened yet. -/
theorem start (h : pushes < 2 ^ 64) : Sound sizesOf pushes {} := by
  refine ⟨⟨SharedMemory.regular_empty, ?_, ?_⟩, ?_, ?_, ?_, ?_⟩
  · intro o ho
    cases ho
  · intro name o ho
    cases ho
  · intro segment hmem
    cases hmem
  · intro handle hmem
    cases hmem
  · intro c hmem
    cases hmem
  · intro o kind
    simpa using h

/-- Fewer packets are still to come. -/
theorem mono (h : t.Sound sizesOf pushes) {fewer : Nat} (hle : fewer ≤ pushes) : t.Sound sizesOf fewer :=
  ⟨h.stored, h.segments, h.handles, h.consumers,
    fun o kind => Nat.lt_of_le_of_lt (Nat.add_le_add_left hle _) (h.room o kind)⟩

/-- Only memory has changed. -/
theorem reshare (h : t.Sound sizesOf pushes) (hstored : Stored sizesOf { t with shared }) :
    Sound sizesOf pushes { t with shared } := ⟨hstored, h.segments, h.handles, h.consumers, h.room⟩

/-- One more handle. -/
theorem gain (h : t.Sound sizesOf pushes) (hto : t.Leads sizesOf handle) :
    Sound sizesOf pushes { t with handles := t.handles ++ [handle] } := by
  refine ⟨⟨h.stored.regular, h.stored.carries, h.stored.named⟩, h.segments, ?_, h.consumers, h.room⟩
  intro handle' hmem
  rcases List.mem_append.1 hmem with hmem | hmem
  · exact h.handles handle' hmem
  · obtain rfl := List.mem_singleton.1 hmem
    exact hto

/-- One more consumer. -/
theorem consume (h : t.Sound sizesOf pushes) (hto : t.Leads sizesOf handle) :
    Sound sizesOf pushes
      { t with consumers := t.consumers ++ [{ handle, creations := (t.life handle).creations }] } := by
  refine ⟨⟨h.stored.regular, h.stored.carries, h.stored.named⟩, h.segments, h.handles, ?_, h.room⟩
  intro c hmem
  rcases List.mem_append.1 hmem with hmem | hmem
  · exact h.consumers c hmem
  · obtain rfl := List.mem_singleton.1 hmem
    exact ⟨hto, Nat.le_refl _, fun _ => .start _⟩

/-- A consumer goes on. -/
theorem goOn (h : t.Sound sizesOf pushes) {c : ChannelConsumer} (hc : c ∈ t.consumers) {consumer : PacketConsumer}
    (haccounts : c.consumer.Accounts (t.published c.handle) → consumer.Accounts (t.published c.handle)) (number : Nat) :
    Sound sizesOf pushes { t with consumers := t.consumers.set number { c with consumer } } := by
  refine ⟨⟨h.stored.regular, h.stored.carries, h.stored.named⟩, h.segments, h.handles, ?_, h.room⟩
  intro c' hmem
  rcases List.mem_or_eq_of_mem_set hmem with hmem | rfl
  · exact h.consumers c' hmem
  · obtain ⟨hto, hle, hold⟩ := h.consumers c hc
    exact ⟨hto, hle, fun heq => haccounts (hold heq)⟩

/-- One more packet is published. -/
theorem publish (h : t.Sound sizesOf (pushes + 1)) (hmem : handle ∈ t.handles) {index : UInt64}
    (hpush : handle.ask (.pushPacket packet) t.shared = (.ok index, shared)) :
    let after := { t with shared }.remember handle.region.object
      ((t.life handle).publish handle.channel.kind packet)
    after.Sound sizesOf pushes ∧ t.Grows after := by
  intro after
  have hto := h.handles handle hmem
  have hroom := h.room handle.region.object handle.channel.kind
  have hgrows : t.Grows after := by
    apply Grows.remember
    · rfl
    · exact fun _ => id
    · exact fun _ => rfl
    · exact Nat.le_refl _
    · intro _ kind
      simp only [SegmentLife.publish]
      split
      · exact List.prefix_append _ _
      · exact List.prefix_refl _
  have hstored : after.Stored sizesOf := h.stored.push hto (by simp only [published, life]; omega) hpush
  refine ⟨⟨hstored, fun segment hs kind => hgrows.leads (h.segments segment hs kind),
    fun handle' hh => hgrows.leads (h.handles handle' hh), fun c hc => hgrows.follows (h.consumers c hc), ?_⟩, hgrows⟩
  intro o kind
  have hroom' := h.room o kind
  by_cases ho : o = handle.region.object
  · subst ho
    rw [lives_remember_self]
    simp only [SegmentLife.publish]
    split
    · rw [List.length_append, List.length_singleton]
      simp only [life]
      omega
    · simp only [life]
      omega
  · rw [lives_remember_of_ne _ ho]
    simp only
    omega

/-- One more segment. -/
theorem create (h : t.Sound sizesOf pushes) {segment : Segment}
    (hcreate : Segment.create t.shared name (sizesOf name) = (.ok segment, shared)) :
    let after := { t with shared, segments := t.segments ++ [segment] }.remember segment.region.object
      ((t.lives segment.region.object).create name)
    after.Sound sizesOf pushes ∧ t.Grows after := by
  intro after
  obtain ⟨htouches, -⟩ := Segment.carries_create h.stored.regular hcreate
  obtain ⟨-, -, -, -, hsegment, -⟩ := Segment.create_eq_ok hcreate
  have hgrows : t.Grows after := by
    apply Grows.remember
    · rfl
    · exact fun _ => id
    · exact fun hpos => (h.stored.name_eq htouches hpos).symm
    · exact Nat.le_succ _
    · exact fun heq => absurd heq (Nat.ne_of_lt (Nat.lt_succ_self _))
  refine ⟨⟨h.stored.create hcreate, fun segment' hs kind => ?_, fun handle hh => hgrows.leads (h.handles handle hh),
    fun c hc => hgrows.follows (h.consumers c hc), fun o kind => ?_⟩, hgrows⟩
  · rcases List.mem_append.1 hs with hs | hs
    · exact hgrows.leads (h.segments segment' hs kind)
    · obtain rfl := List.mem_singleton.1 hs
      have hlife : after.life (segment'.channel kind) = (t.lives segment'.region.object).create name :=
        lives_remember_self _ _ _
      rw [Leads, hlife, hsegment]
      exact ⟨Nat.succ_pos _, rfl⟩
  · have hroom := h.room o kind
    by_cases ho : o = segment.region.object
    · subst ho
      rw [lives_remember_self]
      simp only [SegmentLife.create, List.length_nil]
      omega
    · rw [lives_remember_of_ne _ ho]
      exact hroom

/-- **Every turn keeps all in order, and what is remembered grows.** -/
theorem turn (turn : TrafficTurn) (h : t.Sound sizesOf (pushes + if turn.isPush then 1 else 0)) :
    (t.turn sizesOf turn).Sound sizesOf pushes ∧ t.Grows (t.turn sizesOf turn) := by
  have hstay : t.Sound sizesOf pushes ∧ t.Grows t :=
    ⟨h.mono (Nat.le_add_right _ _), .of_lives_eq rfl fun _ => id⟩
  cases turn with
  | create name =>
    rcases hcreate : Segment.create t.shared name (sizesOf name) with ⟨_ | segment, shared⟩
    · simp only [Traffic.turn, hcreate]
      exact ⟨h.reshare (h.stored.create_error hcreate), .of_lives_eq rfl fun _ => id⟩
    · simp only [Traffic.turn, hcreate]
      exact h.create hcreate
  | channel number kind =>
    cases hsegment : t.segments[number]? with
    | none =>
      simp only [Traffic.turn, hsegment]
      exact hstay
    | some segment =>
      simp only [Traffic.turn, hsegment]
      refine ⟨h.gain (h.segments segment (List.mem_of_getElem? hsegment) kind), .of_lives_eq rfl ?_⟩
      exact fun _ => List.mem_append_left _
  | attach name index =>
    rcases hattach : Segment.attach t.shared name index with ⟨e | handle, shared⟩
    · have hshared := Segment.attach_snd_of_error (congrArg Prod.fst hattach)
      rw [hattach] at hshared
      dsimp only at hshared
      subst hshared
      simp only [Traffic.turn, hattach]
      exact hstay
    · obtain ⟨hto, hstored⟩ := h.stored.attach hattach
      simp only [Traffic.turn, hattach]
      exact ⟨(h.reshare hstored).gain hto, .of_lives_eq rfl fun _ => List.mem_append_left _⟩
  | push number packet =>
    cases hhandle : t.handles[number]? with
    | none =>
      simp only [Traffic.turn, hhandle]
      exact hstay
    | some handle =>
      have hmem := List.mem_of_getElem? hhandle
      rcases hpush : handle.ask (.pushPacket packet) t.shared with ⟨e | index, shared⟩
      · obtain rfl := h.stored.push_error (h.handles handle hmem) hpush
        simp only [Traffic.turn, hhandle, hpush]
        exact hstay
      · simp only [Traffic.turn, hhandle, hpush]
        exact h.publish hmem hpush
  | consume number =>
    cases hhandle : t.handles[number]? with
    | none =>
      simp only [Traffic.turn, hhandle]
      exact hstay
    | some handle =>
      simp only [Traffic.turn, hhandle]
      exact ⟨h.consume (h.handles handle (List.mem_of_getElem? hhandle)), .of_lives_eq rfl fun _ => id⟩
  | poll number =>
    cases hconsumer : t.consumers[number]? with
    | none =>
      simp only [Traffic.turn, hconsumer]
      exact hstay
    | some c =>
      have hmem := List.mem_of_getElem? hconsumer
      obtain ⟨g, hring⟩ := h.stored.healthy (h.consumers c hmem).1
      have hread : (c.handle.ask (.pollPackets c.consumer.walk.cursor) t.shared).2 = t.shared :=
        SharedMemory.access_of_read (by simp [ChannelCall.perform, PacketRing.poll])
      simp only [Traffic.turn, hconsumer, hread]
      exact ⟨h.goOn hmem (fun hc => hc.poll hring) number, .of_lives_eq rfl fun _ => id⟩
  | next number =>
    cases hconsumer : t.consumers[number]? with
    | none =>
      simp only [Traffic.turn, hconsumer]
      exact hstay
    | some c =>
      have hmem := List.mem_of_getElem? hconsumer
      obtain ⟨g, hring⟩ := h.stored.healthy (h.consumers c hmem).1
      have hread : (c.handle.ask (.nextPacket c.consumer.walk) t.shared).2 = t.shared :=
        SharedMemory.access_of_read (PacketRing.run_next_snd _ _ _)
      simp only [Traffic.turn, hconsumer, hread]
      exact ⟨h.goOn hmem (fun hc => hc.next hring) number, .of_lives_eq rfl fun _ => id⟩
  | release number =>
    cases hsegment : t.segments[number]? with
    | none =>
      simp only [Traffic.turn, hsegment]
      exact hstay
    | some segment =>
      simp only [Traffic.turn, hsegment]
      exact ⟨h.reshare (h.stored.release segment.region), .of_lives_eq rfl fun _ => id⟩

/-- So do all turns together. -/
theorem run (turns : List TrafficTurn) (h : t.Sound sizesOf (pushes + turns.countP TrafficTurn.isPush)) :
    (t.run sizesOf turns).Sound sizesOf pushes ∧ t.Grows (t.run sizesOf turns) := by
  induction turns generalizing t with
  | nil => exact ⟨h, .of_lives_eq rfl fun _ => id⟩
  | cons turn turns ih =>
    rw [List.countP_cons, ← Nat.add_assoc] at h
    obtain ⟨hturn, hgrows⟩ := Sound.turn turn h
    obtain ⟨hrun, hgrows'⟩ := ih hturn
    exact ⟨hrun, hgrows.trans hgrows'⟩

end Sound

/-! ## What users can rely on -/

/-- What a consumer gets from a whole walk, and where the walk ends. -/
def fullPoll (t : Traffic) (c : ChannelConsumer) : List IndexedPacket × Poll :=
  let ring := c.handle.channel.packets
  let m := (t.shared.object c.handle.region.object).memory
  ring.drain m ((ring.poll c.consumer.walk.cursor).run m).1

/-- **Until a segment is created again, its write indices only increase, and no consumer runs ahead of them.** However
segments are created, also again under names that still exist, and whatever is pushed and polled through any handles,
from one time to any later one:

* a handle reports how many packets have been published on its channel since the segment was created last, and this does
  not decrease unless the segment is created again in between;
* the cursor of a consumer that has started since then is not greater than the write index, a whole walk brings it
  there, and every packet published was received once and in order, or is counted as skipped. -/
theorem cursors_never_pass (sizesOf : String → Sizes) (turns later : List TrafficTurn)
    (h : (turns ++ later).countP TrafficTurn.isPush < 2 ^ 64) :
    let t := run sizesOf {} turns
    let u := run sizesOf t later
    (∀ handle ∈ t.handles, handle ∈ u.handles ∧ u.writeIndex handle = (u.published handle).length ∧
      ((t.life handle).creations = (u.life handle).creations → t.writeIndex handle ≤ u.writeIndex handle)) ∧
    ∀ c ∈ u.consumers, c.creations = (u.life c.handle).creations →
      c.consumer.walk.cursor.toNat ≤ u.writeIndex c.handle ∧
      (u.fullPoll c).2.cursor.toNat = u.writeIndex c.handle ∧
      (c.consumer.received ++ (u.fullPoll c).1).Sublist (PacketRing.numbered (u.published c.handle)) ∧
      (c.consumer.received ++ (u.fullPoll c).1).length + c.consumer.missed + c.consumer.walk.skipped.toNat +
        (u.fullPoll c).2.skipped.toNat = u.writeIndex c.handle := by
  intro t u
  rw [List.countP_append] at h
  have hstart : Sound sizesOf (later.countP TrafficTurn.isPush + turns.countP TrafficTurn.isPush) {} :=
    .start (by omega)
  obtain ⟨ht, -⟩ := hstart.run turns
  rw [← Nat.zero_add (later.countP TrafficTurn.isPush)] at ht
  obtain ⟨hu, hgrows⟩ := ht.run later
  constructor
  · intro handle hmem
    have hto := ht.handles handle hmem
    have hindex := hu.stored.writeIndex_eq (hgrows.leads hto)
    refine ⟨hgrows.handles handle hmem, hindex, fun hsame => ?_⟩
    rw [hindex, ht.stored.writeIndex_eq hto]
    exact (hgrows.published _ hsame _).length_le
  · intro c hmem hsame
    obtain ⟨hto, -, haccounts⟩ := hu.consumers c hmem
    obtain ⟨g, hring⟩ := hu.stored.healthy hto
    obtain ⟨more, rest, hpoll, hcursor, hreceived, hcounted⟩ := (haccounts hsame).drain hring
    have hfull : u.fullPoll c = (more, rest) := hpoll
    rw [hu.stored.writeIndex_eq hto, hfull]
    exact ⟨(haccounts hsame).cursor_le, hcursor, hreceived, hcounted⟩

section Overtaken

/-- One segment with rings of one slot, and one consumer. -/
def overtaken : List TrafficTurn := [.create "desk", .channel 0 .video0, .consume 0]

/-- Segments of the smallest size. -/
def smallest (_ : String) : Sizes := { queueSize := 1, slotSize := 1, eventSlots := 1 }

/-- The first packet is overwritten before the consumer begins to walk, and the creator goes away. -/
def overtaking : List TrafficTurn :=
  [.push 0 { data := [1] }, .push 0 { data := [2] }, .poll 0, .next 0, .release 0]

/-- There is one handle and one consumer, and no segment is created again. -/
theorem lives_overtaken :
    let t := run smallest {} overtaken
    let u := run smallest t overtaking
    t.handles.length = 1 ∧ u.consumers.length = 1 ∧
      (∀ handle ∈ t.handles, (t.life handle).creations = (u.life handle).creations) ∧
        ∀ c ∈ u.consumers, c.creations = (u.life c.handle).creations := by
  decide +kernel

/-- So it is for them. -/
theorem cursors_never_pass_overtaken :
    let t := run smallest {} overtaken
    let u := run smallest t overtaking
    (overtaken ++ overtaking).countP TrafficTurn.isPush < 2 ^ 64 ∧
      (∀ handle ∈ t.handles, t.writeIndex handle ≤ u.writeIndex handle) ∧
      ∀ c ∈ u.consumers, (c.consumer.received ++ (u.fullPoll c).1).length + c.consumer.missed +
        c.consumer.walk.skipped.toNat + (u.fullPoll c).2.skipped.toNat = u.writeIndex c.handle := by
  intro t u
  have hpushes : (overtaken ++ overtaking).countP TrafficTurn.isPush < 2 ^ 64 := by decide
  obtain ⟨-, -, hsame, hsince⟩ := lives_overtaken
  obtain ⟨hindices, hconsumers⟩ := cursors_never_pass smallest overtaken overtaking hpushes
  refine ⟨hpushes, fun handle hmem => ?_, fun c hmem => ?_⟩
  · obtain ⟨-, -, hle⟩ := hindices handle hmem
    exact hle (hsame handle hmem)
  · obtain ⟨-, -, -, hcounted⟩ := hconsumers c hmem (hsince c hmem)
    exact hcounted

end Overtaken

/-- Creating a segment again takes its write indices back: here a packet was published before. -/
theorem writeIndex_decreases_when_created_again :
    ¬∀ (sizesOf : String → Sizes) (turns later : List TrafficTurn), ∀ handle ∈ (run sizesOf {} turns).handles,
      (run sizesOf {} turns).writeIndex handle ≤ (run sizesOf {} (turns ++ later)).writeIndex handle := by
  intro hall
  obtain ⟨segment, s₁, hcreate⟩ : ∃ segment s₁,
      Segment.create .empty "desk" { queueSize := 1, slotSize := 1, eventSlots := 1 } = (.ok segment, s₁) :=
    Segment.exists_create rfl (Sizes.check_eq_ok_iff.1 rfl) rfl (by decide) (.inl rfl)
  obtain ⟨hsizes, hname, hlive, hv, hfresh⟩ := Segment.live_create hcreate
  have hto := hlive.leadsTo_channel .video0
  obtain ⟨hring, hindex⟩ := hfresh .video0 .packets
  have hfits : ({ data := [7] } : Packet).data.length ≤ segment.sizes.slotSize := by
    rw [hsizes]
    decide
  -- One packet is published.
  obtain ⟨hanswer, hbytes⟩ := hlive.ask_eq hto (.pushPacket { data := [7] })
  obtain ⟨hlive₂, -⟩ := hlive.ask hto (.pushPacket { data := [7] })
  rw [ChannelCall.perform, hto.channel_eq] at hanswer hbytes
  rw [PacketRing.run_push hring hfits] at hanswer
  have hwritten := PacketRing.writeIndex_push hring hfits
  rw [PacketRing.nextIndex, hindex, ← hbytes] at hwritten
  rcases hpush : (segment.channel .video0).ask (.pushPacket { data := [7] }) s₁ with ⟨outcome, s₂⟩
  rw [hpush] at hanswer hlive₂ hwritten
  dsimp only at hanswer hlive₂ hwritten
  subst hanswer
  -- The name still leads to the object, so the segment can be created in it once more.
  have hnamed := hlive₂.backed.named
  rw [hname] at hnamed
  obtain ⟨segment', s₃, hagain⟩ : ∃ segment' s₃,
      Segment.create s₂ "desk" { queueSize := 1, slotSize := 1, eventSlots := 1 } = (.ok segment', s₃) :=
    Segment.exists_create rfl (Sizes.check_eq_ok_iff.1 rfl) rfl (by decide) (.inr ⟨_, hlive₂.backed.object_lt, hnamed⟩)
  let sizesOf : String → Sizes := fun _ => { queueSize := 1, slotSize := 1, eventSlots := 1 }
  let turns : List TrafficTurn := [.create "desk", .channel 0 .video0, .push 0 { data := [7] }]
  have hbefore : (run sizesOf {} turns).shared = s₂ ∧
      (run sizesOf {} turns).handles = [segment.channel .video0] := by
    simp [turns, sizesOf, run, turn, hcreate, remember, hpush]
  have hafter : (run sizesOf {} (turns ++ [.create "desk"])).shared = s₃ := by
    simp [turns, sizesOf, run, turn, hcreate, remember, hpush, hagain]
  obtain ⟨hshared, hhandles⟩ := hbefore
  have hsound : Sound sizesOf (0 + turns.countP TrafficTurn.isPush) {} := .start (by decide)
  have hregular := (hsound.run turns).1.stored.regular
  rw [hshared] at hregular
  have hobject : segment'.region.object = segment.region.object := by
    obtain ⟨htouches, -⟩ := Segment.carries_create hregular hagain
    rcases htouches.origin with hold | ⟨hnone, -⟩
    · simpa using hold.symm.trans hnamed
    · rw [hnamed] at hnone
      cases hnone
  obtain ⟨hsizes', -, -, hv', hfresh'⟩ := Segment.live_create hagain
  obtain ⟨-, hzero⟩ := hfresh' .video0 .packets
  rw [hsizes', ← hsizes, Segment.bytes, hobject, ← hto.channel_eq] at hzero
  have hle := hall sizesOf turns [.create "desk"] (segment.channel .video0) (by simp [hhandles])
  rw [writeIndex, writeIndex, hshared, hafter] at hle
  have hone : ((segment.channel .video0).ask .writeIndex s₂).1 = 1 := by
    rw [ask_writeIndex, hto.channel_eq]
    exact hwritten
  have hnone : ((segment.channel .video0).ask .writeIndex s₃).1 = 0 := by
    rw [ask_writeIndex]
    exact hzero
  rw [hone, hnone] at hle
  exact absurd hle (by decide)

end Traffic

end MediaChannels
