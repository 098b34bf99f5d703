import MediaChannels.Proofs.EventLanes.Entries
import MediaChannels.Proofs.Memory.Programs
import MediaChannels.Proofs.Words

/-!
# One event lane

A lane in memory holds a list of unread entries, oldest first. Each operation on the lane is an operation on that list.

* `Sized`, `Sized.push_of_le`: the number of slots stands in memory; a lane with so many unread entries takes nothing.
* `Holds`: the list that a lane holds, by its two counters. The counters are words and may wrap around.
* `Fresh`, `fresh_init`: a lane that was just set up holds nothing, and its slots are cleared.
* `Holds.push_over`, `Holds.push`: an entry is appended; unread entries in its slot, if there are any, are lost.
* `run_take`, `Holds.take`: malformed entries are dropped up to the first event, which is found.
* `run_lastAmong`, `Holds.lastAmong`: taking again and again empties the lane and finds its last event.
* `push_storesIn`, `take_storesIn`, `lastAmong_storesIn`: all of this stays inside the lane.
-/

namespace MediaChannels

namespace Lane

variable (lane : Lane)

/-! ## Slots -/

/-- Offset of the slot with a number. -/
def slotFor (i : Nat) : Nat := lane.slotsAt + i * slotSize

/-- The entry that stands in the slot with a number. -/
def entryIn (m : Memory) (i : Nat) : LaneEntry :=
  (m.word32 (lane.slotFor i), (m.word64 (lane.slotFor i + 8)).toInt64)

/-- The slot of the unread entry with a number, when so many entries have been taken. -/
def place (slots : Nat) (taken : UInt64) (j : Nat) : Nat := (taken + .ofNat j).toNat % slots

theorem place_zero (slots : Nat) (taken : UInt64) : place slots taken 0 = taken.toNat % slots := by
  rw [place, show UInt64.ofNat 0 = 0 from rfl, UInt64.add_zero]

theorem place_succ (slots : Nat) (taken : UInt64) (j : Nat) :
    place slots (taken + 1) j = place slots taken (j + 1) := by
  rw [place, place, UInt64.ofNat_add, UInt64.add_assoc, UInt64.add_comm 1]
  rfl

theorem place_of_lt {slots : Nat} {taken : UInt64} {j : Nat} (h : taken.toNat + j < 2 ^ 64) :
    place slots taken j = (taken.toNat + j) % slots := by
  rw [place, UInt64.toNat_add, UInt64.toNat_ofNat', Nat.mod_eq_of_lt (a := j) (by omega), Nat.mod_eq_of_lt h]

/-- Unless the counters wrap around, unread entries have slots of their own. -/
theorem place_ne_of_lt {slots : Nat} {taken : UInt64} {i j : Nat} (h : taken.toNat + j < 2 ^ 64) (hij : i < j)
    (hj : j < slots) : place slots taken i ≠ place slots taken j := by
  rw [place_of_lt (by omega), place_of_lt h]
  exact mod_ne_mod_of_lt (by omega) (by omega)

theorem slotFor_end_le {slots i : Nat} (hi : i < slots) : lane.slotFor i + slotSize ≤ lane.base + size slots := by
  have hs : headerSize + slots * slotSize ≤ size slots := le_alignUp _
  have hm := Nat.mul_le_mul_right slotSize hi
  rw [Nat.succ_mul] at hm
  simp only [slotFor, slotsAt]
  omega

theorem base_le_slotFor (i : Nat) : lane.base ≤ lane.slotFor i :=
  Nat.le_trans (Nat.le_add_right _ _) (Nat.le_add_right _ _)

theorem header_le_size (slots : Nat) : headerSize ≤ size slots :=
  Nat.le_trans (Nat.le_add_right _ _) (le_alignUp _)

/-- The slots follow one another. -/
theorem slotFor_le {i j : Nat} (h : i < j) : lane.slotFor i + slotSize ≤ lane.slotFor j := by
  have hm := Nat.mul_le_mul_right slotSize h
  rw [Nat.succ_mul] at hm
  simp only [slotFor]
  omega

/-- Different slots do not overlap. -/
theorem slotFor_disjoint {i j : Nat} (h : i ≠ j) :
    lane.slotFor i + slotSize ≤ lane.slotFor j ∨ lane.slotFor j + slotSize ≤ lane.slotFor i :=
  (Nat.lt_or_gt_of_ne h).imp lane.slotFor_le lane.slotFor_le

theorem entryIn_congr {lane : Lane} {m m' : Memory} {i : Nat}
    (h : Memory.Agree (lane.slotFor i) (lane.slotFor i + slotSize) m' m) : lane.entryIn m' i = lane.entryIn m i := by
  have hs : slotSize = 16 := rfl
  rw [entryIn, entryIn, h.word32 _ (Nat.le_refl _) (by omega), h.word64 _ (by omega) (by omega)]

/-! ## Lanes of which only the size is known -/

/-- A lane has the number of slots with which it was set up; its counters and its entries may be anything. -/
structure Sized (lane : Lane) (slots : Nat) (m : Memory) : Prop where
  slots_pos : 0 < slots
  slots_lt : slots < 2 ^ 64
  slotCount_eq : m.word64 lane.slotCountAt = .ofNat slots

/-- The number of entries between the two counters of a lane. -/
def unreadCount (lane : Lane) (m : Memory) : Nat := (m.word64 lane.base - m.word64 lane.readAt).toNat

section Sized

variable {lane : Lane} {slots : Nat} {m : Memory}

theorem Sized.toNat_slots (h : lane.Sized slots m) : (UInt64.ofNat slots).toNat = slots := by
  rw [UInt64.toNat_ofNat', Nat.mod_eq_of_lt h.slots_lt]

theorem Sized.run_slotAt (h : lane.Sized slots m) (counter : UInt64) :
    (lane.slotAt counter).run m = (lane.slotFor (counter.toNat % slots), m) := by
  simp [slotAt, h.slotCount_eq, slotFor, h.toNat_slots]

/-- **A full lane takes nothing**, also if its counters are further apart than it has slots. -/
theorem Sized.push_of_le (h : lane.Sized slots m) (hle : slots ≤ lane.unreadCount m) (tag : UInt32) (value : Int64) :
    (lane.push tag value).run m = (false, m) := by
  have hfull : UInt64.ofNat slots ≤ m.word64 lane.base - m.word64 lane.readAt := by
    rwa [UInt64.le_iff_toNat_le, h.toNat_slots]
  simp [Lane.push, h.slotCount_eq, hfull]

end Sized

/-! ## The list that a lane holds -/

/-- The lane has so many slots, so many entries have been taken from it, and these are unread. -/
structure Holds (slots : Nat) (taken : UInt64) (entries : List LaneEntry) (m : Memory) : Prop where
  slots_pos : 0 < slots
  slots_lt : slots < 2 ^ 64
  slotCount_eq : m.word64 lane.slotCountAt = .ofNat slots
  taken_eq : m.word64 lane.readAt = taken
  written_eq : m.word64 lane.base = taken + .ofNat entries.length
  length_le : entries.length ≤ slots
  entry_eq : ∀ j, (hj : j < entries.length) → lane.entryIn m (place slots taken j) = entries[j]

variable {lane} {slots : Nat} {taken : UInt64} {entries : List LaneEntry} {m m' : Memory}

/-- What a lane holds depends only on the bytes of the lane. -/
theorem Holds.congr (h : lane.Holds slots taken entries m)
    (ha : Memory.Agree lane.base (lane.base + size slots) m' m) : lane.Holds slots taken entries m' := by
  have hs := header_le_size slots
  simp only [headerSize, cacheLine] at hs
  refine ⟨h.slots_pos, h.slots_lt, ?_, ?_, ?_, h.length_le, fun j hj => ?_⟩
  · rw [ha.word64 lane.slotCountAt (Nat.le_add_right _ _) (by simp only [slotCountAt, cacheLine]; omega),
      h.slotCount_eq]
  · rw [ha.word64 lane.readAt (Nat.le_add_right _ _) (by simp only [readAt, cacheLine]; omega), h.taken_eq]
  · rw [ha.word64 lane.base (Nat.le_refl _) (by omega), h.written_eq]
  · have hp : place slots taken j < slots := Nat.mod_lt _ h.slots_pos
    rw [entryIn_congr (ha.mono (lane.base_le_slotFor _) (lane.slotFor_end_le hp)), h.entry_eq j hj]

theorem Holds.sized (h : lane.Holds slots taken entries m) : lane.Sized slots m :=
  ⟨h.slots_pos, h.slots_lt, h.slotCount_eq⟩

theorem Holds.toNat_length (h : lane.Holds slots taken entries m) :
    (UInt64.ofNat entries.length).toNat = entries.length := by
  have := h.length_le
  have := h.slots_lt
  rw [UInt64.toNat_ofNat', Nat.mod_eq_of_lt (by omega)]

theorem Holds.written_sub_taken (h : lane.Holds slots taken entries m) :
    m.word64 lane.base - m.word64 lane.readAt = .ofNat entries.length := by
  rw [h.written_eq, h.taken_eq, UInt64.add_comm, UInt64.add_sub_cancel]

theorem Holds.unreadCount_eq (h : lane.Holds slots taken entries m) : lane.unreadCount m = entries.length := by
  rw [unreadCount, h.written_sub_taken, h.toNat_length]

theorem Holds.run_pending (h : lane.Holds slots taken entries m) :
    lane.pending.run m = (.ofNat entries.length, m) := by
  simp [pending, h.written_sub_taken]

/-! ## Lanes that were just set up -/

theorem slotLoop_clearSlots : Access.SlotLoop slotSize
    (fun offset => do
      Access.setWord32 offset 0
      Access.setWord64 (offset + 8) 0) clearSlots where
  zero _ := rfl
  succ _ _ := rfl
  body_storesIn offset m := by
    have hs : slotSize = 16 := rfl
    simp only [Access.storesIn_bind, Access.storesIn_setWord32, Access.storesIn_setWord64]
    omega

/-- Clearing slots clears all of them. -/
theorem words_clearSlots {count : Nat} (offset : Nat) (m : Memory) {i : Nat} (hi : i < count) :
    ((clearSlots count offset).run m).2.word32 (offset + i * slotSize) = 0 ∧
      ((clearSlots count offset).run m).2.word64 (offset + i * slotSize + 8) = 0 := by
  have hs : slotSize = 16 := rfl
  obtain ⟨before, ha⟩ := slotLoop_clearSlots.agree_slot hi offset m
  rw [ha.word32 _ (Nat.le_refl _) (by omega), ha.word64 _ (Nat.le_add_right _ _) (by omega)]
  simp only [Access.run_bind, Access.run_setWord32, Access.run_setWord64]
  refine ⟨?_, Memory.word64_write_bytes64 _ _ _⟩
  rw [Memory.word32_write_of_disjoint, Memory.word32_write_bytes32]
  exact .inl (by omega)

theorem init_storesIn (lane : Lane) (slots : Nat) (m : Memory) :
    (lane.init slots).StoresIn lane.base (lane.base + size slots) m := by
  have hs := header_le_size slots
  have hslots : headerSize + slots * slotSize ≤ size slots := le_alignUp _
  simp only [headerSize, cacheLine] at hs
  simp only [init, Access.storesIn_bind, Access.storesIn_setWord64, readAt, slotCountAt, cacheLine]
  refine ⟨by omega, by omega, by omega, (slotLoop_clearSlots.storesIn _ _ _).mono (Nat.le_add_right _ _) ?_⟩
  simp only [slotsAt]
  omega

/-- What setting up a lane leaves in memory: both counters at zero, the number of slots, and no entry in any of them. -/
theorem words_init (lane : Lane) (slots : Nat) (m : Memory) :
    let m' := ((lane.init slots).run m).2
    (m'.word64 lane.base = 0 ∧ m'.word64 lane.readAt = 0 ∧ m'.word64 lane.slotCountAt = .ofNat slots) ∧
      ∀ i < slots, lane.entryIn m' i = (0, 0) := by
  simp only [init, Access.run_bind, Access.run_setWord64]
  generalize hm : ((m.write lane.base (Memory.bytes64 0)).write lane.readAt (Memory.bytes64 0)).write lane.slotCountAt
    (Memory.bytes64 (UInt64.ofNat slots)) = m'
  have ha : Memory.Agree lane.base lane.slotsAt ((clearSlots slots lane.slotsAt).run m').2 m' :=
    Access.agree_run_of_storesIn (slotLoop_clearSlots.storesIn _ _ _) (.inl (Nat.le_refl _))
  have hb : m'.word64 lane.base = 0 ∧ m'.word64 lane.readAt = 0 ∧ m'.word64 lane.slotCountAt = .ofNat slots := by
    subst hm
    refine ⟨?_, ?_, Memory.word64_write_bytes64 _ _ _⟩
    · rw [Memory.word64_write_of_disjoint, Memory.word64_write_of_disjoint, Memory.word64_write_bytes64]
      all_goals simp only [readAt, slotCountAt, cacheLine, Memory.length_bytes64]; omega
    · rw [Memory.word64_write_of_disjoint, Memory.word64_write_bytes64]
      simp only [readAt, slotCountAt, cacheLine, Memory.length_bytes64]
      omega
  obtain ⟨hwritten, htaken, hslots⟩ := hb
  -- The slots lie behind the header.
  have hheader (k : Nat) (hk : k + 8 ≤ headerSize) :
      ((clearSlots slots lane.slotsAt).run m').2.word64 (lane.base + k) = m'.word64 (lane.base + k) :=
    ha.word64 _ (Nat.le_add_right _ _) (Nat.add_le_add_left hk _)
  refine ⟨⟨(hheader 0 (by decide)).trans hwritten, (hheader cacheLine (by decide)).trans htaken,
    (hheader (2 * cacheLine) (by decide)).trans hslots⟩, fun i hi => ?_⟩
  obtain ⟨htag, hvalue⟩ := words_clearSlots lane.slotsAt m' hi
  rw [entryIn, slotFor, htag, hvalue]
  rfl

/-- A lane as it is before anybody has used it: it holds nothing, and its slots are cleared. -/
structure Fresh (lane : Lane) (slots : Nat) (m : Memory) : Prop where
  holds : lane.Holds slots 0 [] m
  cleared : ∀ i < slots, lane.entryIn m i = (0, 0)

/-- **A lane that was just set up is fresh**, whatever was there before. -/
theorem fresh_init (lane : Lane) {slots : Nat} (hp : 0 < slots) (hl : slots < 2 ^ 64) (m : Memory) :
    lane.Fresh slots ((lane.init slots).run m).2 := by
  obtain ⟨⟨hwritten, htaken, hslots⟩, hcleared⟩ := lane.words_init slots m
  exact ⟨⟨hp, hl, hslots, htaken, hwritten, Nat.zero_le _, fun j hj => absurd hj (Nat.not_lt_zero j)⟩, hcleared⟩

/-- Whether a lane is fresh depends only on the bytes of the lane. -/
theorem Fresh.congr (h : lane.Fresh slots m) (ha : Memory.Agree lane.base (lane.base + size slots) m' m) :
    lane.Fresh slots m' where
  holds := h.holds.congr ha
  cleared i hi := by
    rw [entryIn_congr (ha.mono (lane.base_le_slotFor i) (lane.slotFor_end_le hi)), h.cleared i hi]

/-! ## Appending -/

section Push

variable {tag : UInt32} {value : Int64}

theorem run_push_of_full (h : lane.Holds slots taken entries m) (hf : slots ≤ entries.length) :
    (lane.push tag value).run m = (false, m) := h.sized.push_of_le (by rwa [h.unreadCount_eq]) tag value

/-- Otherwise the entry is stored in its slot, and counted. -/
theorem run_push_of_lt (h : lane.Holds slots taken entries m) (hlt : entries.length < slots) :
    (lane.push tag value).run m = (true,
      ((m.write (lane.slotFor (place slots taken entries.length)) (Memory.bytes32 tag)).write
        (lane.slotFor (place slots taken entries.length) + 8) (Memory.bytes64 value.toUInt64)).write lane.base
          (Memory.bytes64 (taken + .ofNat entries.length + 1))) := by
  have hle : ¬UInt64.ofNat slots ≤ m.word64 lane.base - m.word64 lane.readAt := by
    rw [h.written_sub_taken, UInt64.le_iff_toNat_le, h.sized.toNat_slots, h.toNat_length]
    omega
  simp only [push, Access.run_bind, Access.run_word64, h.slotCount_eq, if_neg hle, h.sized.run_slotAt,
    Access.run_setWord32, Access.run_setWord64, Access.run_pure]
  rw [h.written_eq]
  rfl

theorem push_storesIn (h : lane.Holds slots taken entries m) (tag : UInt32) (value : Int64) :
    (lane.push tag value).StoresIn lane.base (lane.base + size slots) m := by
  have hs := header_le_size slots
  simp only [headerSize, cacheLine] at hs
  have hp := lane.slotFor_end_le (Nat.mod_lt (m.word64 lane.base).toNat h.slots_pos)
  have hl : lane.base ≤ lane.slotFor ((m.word64 lane.base).toNat % slots) := by
    simp only [slotFor, slotsAt]
    omega
  simp only [slotSize] at hp
  simp only [push, Access.storesIn_bind, Access.storesIn_word64, Access.run_word64, true_and]
  split
  · exact Access.storesIn_pure _ _
  · have hat : (lane.slotAt (m.word64 lane.base)).StoresIn lane.base (lane.base + size slots) m := by simp [slotAt]
    simp only [Access.storesIn_bind, h.sized.run_slotAt, Access.storesIn_setWord32, Access.storesIn_setWord64,
      Access.storesIn_pure, and_true]
    exact ⟨hat, by omega, by omega, by omega⟩

/-- The unread entries after another was stored in the slot that comes next: none that stood there is left. -/
def overwritten (slots : Nat) (taken : UInt64) (entries : List LaneEntry) (entry : LaneEntry) : List LaneEntry :=
  entries.mapIdx fun j old => if place slots taken j = place slots taken entries.length then entry else old

/-- **An entry is appended, and takes the place of all unread entries in its slot.** -/
theorem Holds.push_over (h : lane.Holds slots taken entries m) (hlt : entries.length < slots) :
    lane.Holds slots taken (overwritten slots taken entries (tag, value) ++ [(tag, value)])
      ((lane.push tag value).run m).2 := by
  rw [run_push_of_lt h hlt]
  have hlen : (overwritten slots taken entries (tag, value)).length = entries.length := List.length_mapIdx
  generalize hi : place slots taken entries.length = i
  have hat (i : Nat) : lane.base + headerSize ≤ lane.slotFor i := Nat.le_add_right _ _
  simp only [headerSize, cacheLine] at hat
  have hati := hat i
  have hnew : lane.entryIn (((m.write (lane.slotFor i) (Memory.bytes32 tag)).write (lane.slotFor i + 8)
      (Memory.bytes64 value.toUInt64)).write lane.base (Memory.bytes64 (taken + .ofNat entries.length + 1))) i =
        (tag, value) := by
    rw [entryIn, Memory.word32_write_of_disjoint, Memory.word32_write_of_disjoint, Memory.word32_write_bytes32,
      Memory.word64_write_of_disjoint, Memory.word64_write_bytes64]
    · rfl
    all_goals simp only [Memory.length_bytes64]; omega
  refine ⟨h.slots_pos, h.slots_lt, ?_, ?_, ?_, ?_, fun j hj => ?_⟩
  · rw [Memory.word64_write_of_disjoint, Memory.word64_write_of_disjoint, Memory.word64_write_of_disjoint,
      h.slotCount_eq]
    all_goals simp only [slotCountAt, cacheLine, Memory.length_bytes64, Memory.length_bytes32]; omega
  · rw [Memory.word64_write_of_disjoint, Memory.word64_write_of_disjoint, Memory.word64_write_of_disjoint, h.taken_eq]
    all_goals simp only [readAt, cacheLine, Memory.length_bytes64, Memory.length_bytes32]; omega
  · rw [Memory.word64_write_bytes64, List.length_append, hlen, List.length_singleton, UInt64.ofNat_add,
      ← UInt64.add_assoc]
    rfl
  · rw [List.length_append, hlen, List.length_singleton]
    exact hlt
  · rcases Nat.lt_or_ge j entries.length with hj' | hj'
    · rw [List.getElem_append_left (by rwa [hlen])]
      simp only [overwritten, List.getElem_mapIdx, hi]
      by_cases hji : place slots taken j = i
      · rw [if_pos hji, hji, hnew]
      · have hd := lane.slotFor_disjoint hji
        have hatj := hat (place slots taken j)
        rw [if_neg hji, ← h.entry_eq j hj']
        simp only [slotSize] at hd
        apply entryIn_congr
        refine (Memory.agree_write_of_disjoint _ ?_).trans ((Memory.agree_write_of_disjoint _ ?_).trans
          (Memory.agree_write_of_disjoint _ ?_))
        all_goals simp only [Memory.length_bytes64, Memory.length_bytes32, slotSize]; omega
    · have hje : j = entries.length := by
        rw [List.length_append, hlen, List.length_singleton] at hj
        omega
      rw [List.getElem_concat_length (hje.trans hlen.symm), hje, hi, hnew]

/-- **An entry is appended, if no unread entry stands in its slot.** -/
theorem Holds.push (h : lane.Holds slots taken entries m) (hlt : entries.length < slots)
    (hfresh : ∀ j < entries.length, place slots taken j ≠ place slots taken entries.length) :
    lane.Holds slots taken (entries ++ [(tag, value)]) ((lane.push tag value).run m).2 := by
  have hkept : overwritten slots taken entries (tag, value) = entries := by
    refine List.ext_getElem List.length_mapIdx fun j hj hj' => ?_
    simp only [overwritten, List.getElem_mapIdx]
    exact if_neg (hfresh j hj')
  rw [← hkept]
  exact h.push_over hlt

end Push

/-! ## Taking -/

section Take

variable {kind : ControlKind} {consume : Bool} {entry : LaneEntry} {rest : List LaneEntry}

/-- Counting one more entry as taken drops the oldest. -/
theorem Holds.drop (h : lane.Holds slots taken (entry :: rest) m) :
    lane.Holds slots (taken + 1) rest (m.write lane.readAt (Memory.bytes64 (taken + 1))) := by
  have hl := h.length_le
  rw [List.length_cons] at hl
  refine ⟨h.slots_pos, h.slots_lt, ?_, Memory.word64_write_bytes64 _ _ _, ?_, Nat.le_of_succ_le hl, fun j hj => ?_⟩
  · rw [Memory.word64_write_of_disjoint, h.slotCount_eq]
    simp only [readAt, slotCountAt, cacheLine, Memory.length_bytes64]
    omega
  · rw [Memory.word64_write_of_disjoint, h.written_eq, List.length_cons, UInt64.ofNat_add, UInt64.add_assoc,
      UInt64.add_comm 1]
    · rfl
    · simp only [readAt, cacheLine]
      omega
  · rw [place_succ, ← List.getElem_cons_succ entry rest j (Nat.succ_lt_succ hj), ← h.entry_eq (j + 1)]
    apply entryIn_congr
    apply Memory.agree_write_of_disjoint
    simp only [slotFor, slotsAt, headerSize, readAt, cacheLine, Memory.length_bytes64]
    omega

/-- One turn of the search: the oldest entry is the event, or it is dropped and the search goes on. -/
theorem run_takeAmong_succ (h : lane.Holds slots taken (entry :: rest) m) (count : Nat) :
    (lane.takeAmong kind consume (count + 1)).run m =
      match entry.event? kind with
      | some event => (some event, if consume then m.write lane.readAt (Memory.bytes64 (taken + 1)) else m)
      | none => (lane.takeAmong kind consume count).run (m.write lane.readAt (Memory.bytes64 (taken + 1))) := by
  have he := h.entry_eq 0 (Nat.succ_pos _)
  rw [place_zero, List.getElem_cons_zero] at he
  have hd : decodeFor? kind (m.word32 (lane.slotFor (taken.toNat % slots)))
      (m.word64 (lane.slotFor (taken.toNat % slots) + 8)).toInt64 = entry.event? kind := by
    rw [LaneEntry.decodeFor?_eq, ← he]
    rfl
  rw [takeAmong]
  simp only [Access.run_bind, Access.run_word64, Access.run_word32, h.taken_eq, h.sized.run_slotAt, hd]
  cases entry.event? kind with
  | none => rfl
  | some event => cases consume <;> rfl

/-- **Malformed entries are dropped up to the oldest event**, which is found, and dropped if it is to be consumed. -/
theorem run_takeAmong (h : lane.Holds slots taken entries m) :
    ((lane.takeAmong kind consume entries.length).run m).1 = (fromEvent kind entries).head?.bind (·.event? kind) ∧
      lane.Holds slots (taken + .ofNat (entries.length - (leftover kind consume entries).length))
        (leftover kind consume entries) ((lane.takeAmong kind consume entries.length).run m).2 := by
  induction entries generalizing taken m with
  | nil =>
    have hl : leftover kind consume [] = [] := by cases consume <;> rfl
    refine ⟨rfl, ?_⟩
    rw [hl, List.length_nil, show UInt64.ofNat (0 - 0) = 0 from rfl, UInt64.add_zero]
    exact h
  | cons entry rest ih =>
    rw [List.length_cons, run_takeAmong_succ h]
    cases he : entry.event? kind with
    | none =>
      obtain ⟨hfound, hheld⟩ := ih h.drop
      have hl : leftover kind consume (entry :: rest) = leftover kind consume rest := by
        rw [leftover, leftover, fromEvent_cons_of_none he]
      have hle := length_leftover_le kind consume rest
      have hn : taken + .ofNat (rest.length + 1 - (leftover kind consume rest).length) =
          taken + 1 + .ofNat (rest.length - (leftover kind consume rest).length) := by
        rw [show rest.length + 1 - (leftover kind consume rest).length =
          1 + (rest.length - (leftover kind consume rest).length) by omega, UInt64.ofNat_add, ← UInt64.add_assoc]
        rfl
      rw [fromEvent_cons_of_none he, hl, hn]
      exact ⟨hfound, hheld⟩
    | some event =>
      rw [fromEvent_cons_of_some he, List.head?_cons, Option.bind_some, he]
      refine ⟨rfl, ?_⟩
      cases consume with
      | true =>
        have hl : leftover kind true (entry :: rest) = rest := by
          rw [leftover, if_pos rfl, fromEvent_cons_of_some he, List.tail_cons]
        rw [hl, Nat.add_sub_cancel_left]
        exact h.drop
      | false =>
        have hl : leftover kind false (entry :: rest) = entry :: rest := fromEvent_cons_of_some he
        rw [hl, List.length_cons, Nat.sub_self, show UInt64.ofNat 0 = 0 from rfl, UInt64.add_zero]
        exact h

theorem takeAmong_storesIn (lane : Lane) (kind : ControlKind) (consume : Bool) (slots count : Nat) (m : Memory) :
    (lane.takeAmong kind consume count).StoresIn lane.base (lane.base + size slots) m := by
  have hs := header_le_size slots
  simp only [headerSize, cacheLine] at hs
  induction count generalizing m with
  | zero => exact Access.storesIn_pure _ _
  | succ count ih =>
    have hr (w : UInt64) (m : Memory) :
        (Access.setWord64 lane.readAt w).StoresIn lane.base (lane.base + size slots) m := by
      rw [Access.storesIn_setWord64]
      simp only [readAt, cacheLine]
      omega
    rw [takeAmong]
    simp only [Access.storesIn_bind, Access.storesIn_word64, Access.storesIn_word32, true_and]
    refine ⟨by simp [slotAt], ?_⟩
    split
    · split
      · simp only [Access.storesIn_bind, Access.storesIn_pure, and_true]
        exact hr _ _
      · exact Access.storesIn_pure _ _
    · exact (Access.storesIn_bind _ _ _).2 ⟨hr _ _, ih _⟩

theorem take_eq_takeAmong (h : lane.Holds slots taken entries m) :
    (lane.take kind consume).run m = (lane.takeAmong kind consume entries.length).run m := by
  rw [take, Access.run_bind, h.run_pending, h.toNat_length]

theorem take_storesIn (lane : Lane) (kind : ControlKind) (consume : Bool) (slots : Nat) (m : Memory) :
    (lane.take kind consume).StoresIn lane.base (lane.base + size slots) m := by
  rw [take, Access.storesIn_bind]
  exact ⟨by simp [pending], takeAmong_storesIn _ _ _ _ _ _⟩

theorem run_take (h : lane.Holds slots taken entries m) (kind : ControlKind) (consume : Bool) :
    ((lane.take kind consume).run m).1 = (fromEvent kind entries).head?.bind (·.event? kind) := by
  rw [take_eq_takeAmong h]
  exact (run_takeAmong h).1

theorem Holds.take (h : lane.Holds slots taken entries m) (kind : ControlKind) (consume : Bool) :
    lane.Holds slots (taken + .ofNat (entries.length - (leftover kind consume entries).length))
      (leftover kind consume entries) ((lane.take kind consume).run m).2 := by
  rw [take_eq_takeAmong h]
  exact (run_takeAmong h).2

/-- **Taking again and again empties the lane and finds its last event.** -/
theorem run_lastAmong (h : lane.Holds slots taken entries m) {count : Nat} (hc : entries.length ≤ count)
    (best : Option ControlEvent) :
    ((lane.lastAmong kind best count).run m).1 = (eventsOf kind entries).getLast?.or best ∧
      lane.Holds slots (taken + .ofNat entries.length) [] ((lane.lastAmong kind best count).run m).2 := by
  induction count generalizing taken entries m best with
  | zero =>
    obtain rfl : entries = [] := List.eq_nil_of_length_eq_zero (Nat.le_zero.1 hc)
    refine ⟨rfl, ?_⟩
    rw [List.length_nil, show UInt64.ofNat 0 = 0 from rfl, UInt64.add_zero]
    exact h
  | succ count ih =>
    have hfound := run_take h kind true
    have hheld := h.take kind true
    rw [lastAmong, Access.run_bind, hfound]
    cases hf : fromEvent kind entries with
    | nil =>
      have hl : leftover kind true entries = [] := by rw [leftover, if_pos rfl, hf, List.tail_nil]
      have hn : eventsOf kind entries = [] := by
        rw [← eventsOf_fromEvent, hf]
        rfl
      rw [hl, List.length_nil, Nat.sub_zero] at hheld
      rw [hn]
      exact ⟨rfl, hheld⟩
    | cons entry rest =>
      obtain ⟨event, he⟩ := exists_event_of_fromEvent hf
      have hl : leftover kind true entries = rest := by rw [leftover, if_pos rfl, hf, List.tail_cons]
      have hn : eventsOf kind entries = event :: eventsOf kind rest := by
        rw [← eventsOf_fromEvent, hf, eventsOf, List.filterMap_cons_some he]
        rfl
      have hle := length_fromEvent_le kind entries
      rw [hf, List.length_cons] at hle
      rw [hl] at hheld
      obtain ⟨hlast, hempty⟩ := ih hheld (by omega) (some event)
      have htaken : taken + .ofNat (entries.length - rest.length) + .ofNat rest.length =
          taken + .ofNat entries.length := by
        rw [UInt64.add_assoc, ← UInt64.ofNat_add, Nat.sub_add_cancel (Nat.le_of_succ_le hle)]
      rw [htaken] at hempty
      simp only [List.head?_cons, Option.bind_some, he]
      refine ⟨hlast.trans ?_, hempty⟩
      rw [hn, List.getLast?_cons]
      cases (eventsOf kind rest).getLast? <;> rfl

theorem lastAmong_storesIn (lane : Lane) (kind : ControlKind) (slots count : Nat) (best : Option ControlEvent)
    (m : Memory) : (lane.lastAmong kind best count).StoresIn lane.base (lane.base + size slots) m := by
  induction count generalizing best m with
  | zero => exact Access.storesIn_pure _ _
  | succ count ih =>
    rw [lastAmong, Access.storesIn_bind]
    refine ⟨take_storesIn _ _ _ _ _, ?_⟩
    split
    · exact ih _ _
    · exact Access.storesIn_pure _ _

end Take

end Lane

end MediaChannels
