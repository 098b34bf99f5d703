import MediaChannels.Proofs.EventLanes.Queues

/-!
# Lanes whose counters wrap around

The counters of a lane are words, and a slot is the remainder of a counter. After the last word the counters start again
at zero, and the slots start again at the first one, wherever they were: unless the number of slots divides `2 ^ 64`, an
entry can come into the slot of one that is still unread.

* `place_eq_place_iff`: when the next entry comes into the slot of an unread one.
* `LaneTurn.onQueue`, `LaneTurn.onRing`: a bounded queue, and a queue that loses the entries which a lane loses.
* `answers_as_ring`: a lane answers every sequence of turns as the second one does.
* `answers_as_queue_iff_dvd`: it answers all of them as the first one does if and only if its number of slots divides
  `2 ^ 64`; what is refused is the same in any case.
-/

namespace MediaChannels

/-! ## Places on both sides of the wrap -/

namespace Lane

/-- **The next entry comes into the slot of an unread one if and only if its counter has just wrapped around and is
below the rest of `2 ^ 64` by the number of slots**; then it is as many places behind that one. -/
theorem place_eq_place_iff {slots : Nat} {taken : UInt64} {j n : Nat} (hj : j < n) (hn : n < slots)
    (hl : slots < 2 ^ 64) :
    place slots taken j = place slots taken n ↔
      (taken + .ofNat n).toNat < 2 ^ 64 % slots ∧ n = j + 2 ^ 64 % slots := by
  have ht := taken.toNat_lt
  have hrest : 2 ^ 64 % slots < slots := Nat.mod_lt _ (by omega)
  have hdivision := Nat.div_add_mod (2 ^ 64) slots
  have hword (i : Nat) (hi : i ≤ n) : (taken + .ofNat i).toNat = (taken.toNat + i) % 2 ^ 64 := by
    rw [UInt64.toNat_add, UInt64.toNat_ofNat', Nat.mod_eq_of_lt (a := i) (by omega)]
  rw [place, place, hword n (Nat.le_refl n), hword j (Nat.le_of_lt hj)]
  rcases Nat.lt_or_ge (taken.toNat + n) (2 ^ 64) with hbefore | hafter
  · -- Neither counter has wrapped around.
    rw [Nat.mod_eq_of_lt hbefore, Nat.mod_eq_of_lt (a := taken.toNat + j) (b := 2 ^ 64) (by omega)]
    exact iff_of_false (mod_ne_mod_of_lt (by omega) (by omega)) (by omega)
  have hwrapped : (taken.toNat + n) % 2 ^ 64 = taken.toNat + n - 2 ^ 64 := by omega
  rcases Nat.lt_or_ge (taken.toNat + j) (2 ^ 64) with hbetween | hboth
  · -- Only the later counter has, so that the slots differ by what `2 ^ 64` leaves.
    rw [hwrapped, Nat.mod_eq_of_lt hbetween]
    obtain ⟨d, rfl⟩ := Nat.exists_eq_add_of_lt hj
    constructor
    · intro hsame
      have hdvd := Nat.sub_mod_eq_zero_of_mod_eq hsame
      obtain ⟨c, hc⟩ := Nat.dvd_of_mod_eq_zero hdvd
      have hpower : 2 ^ 64 = d + 1 + slots * c := by omega
      rw [hpower, Nat.add_mul_mod_self_left, Nat.mod_eq_of_lt (by omega)]
      omega
    · rintro ⟨-, hd⟩
      have hcounter : taken.toNat + j = taken.toNat + (j + d + 1) - 2 ^ 64 + slots * (2 ^ 64 / slots) := by omega
      rw [hcounter, Nat.add_mul_mod_self_left]
  · -- Both have.
    have hwrapped' : (taken.toNat + j) % 2 ^ 64 = taken.toNat + j - 2 ^ 64 := by omega
    rw [hwrapped, hwrapped']
    exact iff_of_false (mod_ne_mod_of_lt (by omega) (by omega)) (by omega)

/-- What is left of a list whose next entry is stored under a counter: that entry may come into the slot of an unread
one. -/
def lapped {α : Type} (slots : Nat) (written : UInt64) (unread : List α) (entry : α) : List α :=
  if written.toNat < 2 ^ 64 % slots ∧ 2 ^ 64 % slots ≤ unread.length then
    unread.set (unread.length - 2 ^ 64 % slots) entry
  else unread

section Lapped

variable {α β : Type} (slots : Nat) (written : UInt64) (unread : List α) (entry : α)

@[simp] theorem length_lapped : (lapped slots written unread entry).length = unread.length := by
  unfold lapped
  split
  · exact List.length_set
  · rfl

theorem map_lapped (f : α → β) :
    (lapped slots written unread entry).map f = lapped slots written (unread.map f) (f entry) := by
  simp only [lapped, List.length_map]
  split
  · exact List.map_set
  · rfl

/-- Nothing is lost if the slots go on across the wrap. -/
theorem lapped_of_dvd (h : slots ∣ 2 ^ 64) : lapped slots written unread entry = unread :=
  if_neg fun hlap => absurd hlap.1 (by rw [Nat.mod_eq_zero_of_dvd h]; exact Nat.not_lt_zero _)

/-- Nothing is lost before the wrap. -/
theorem lapped_of_le (h : unread.length ≤ written.toNat) : lapped slots written unread entry = unread :=
  if_neg fun hlap => by omega

end Lapped

theorem overwritten_eq_lapped {slots : Nat} {taken : UInt64} {entries : List LaneEntry} (hlt : entries.length < slots)
    (hl : slots < 2 ^ 64) (entry : LaneEntry) :
    overwritten slots taken entries entry = lapped slots (taken + .ofNat entries.length) entries entry := by
  refine List.ext_getElem (List.length_mapIdx.trans (length_lapped _ _ _ _).symm) fun j hj hj' => ?_
  have hj'' : j < entries.length := by rwa [length_lapped] at hj'
  simp only [overwritten, List.getElem_mapIdx, place_eq_place_iff hj'' hlt hl, lapped]
  by_cases hlap : (taken + .ofNat entries.length).toNat < 2 ^ 64 % slots ∧ 2 ^ 64 % slots ≤ entries.length
  · simp only [if_pos hlap, List.getElem_set]
    by_cases he : entries.length = j + 2 ^ 64 % slots
    · rw [if_pos ⟨hlap.1, he⟩, if_pos (by omega)]
    · rw [if_neg fun h => he h.2, if_neg (by omega)]
  · simp only [if_neg hlap]
    rw [if_neg fun h => hlap ⟨h.1, by omega⟩]

/-- Whatever the counters are, appending to a lane with room stores the entry, and what is lost is `lapped`. -/
theorem Holds.push_lapped {lane : Lane} {slots : Nat} {taken : UInt64} {entries : List LaneEntry} {m : Memory}
    (h : lane.Holds slots taken entries m) (hlt : entries.length < slots) (tag : UInt32) (value : Int64) :
    lane.Holds slots taken
      (lapped slots (taken + .ofNat entries.length) entries (tag, value) ++ [(tag, value)])
      ((lane.push tag value).run m).2 := by
  rw [← overwritten_eq_lapped hlt h.slots_lt]
  exact h.push_over hlt

/-- Winds an empty lane on: so it is when so many entries have come and gone. -/
def wind (lane : Lane) (start : UInt64) : Access Unit := do
  Access.setWord64 lane.base start
  Access.setWord64 lane.readAt start

theorem Holds.wind {lane : Lane} {slots : Nat} {taken : UInt64} {entries : List LaneEntry} {m : Memory}
    (h : lane.Holds slots taken entries m) (start : UInt64) :
    lane.Holds slots start [] ((lane.wind start).run m).2 := by
  simp only [Lane.wind, Access.run_bind, Access.run_setWord64]
  refine ⟨h.slots_pos, h.slots_lt, ?_, Memory.word64_write_bytes64 _ _ _, ?_, Nat.zero_le _,
    fun j hj => absurd hj (Nat.not_lt_zero j)⟩
  · rw [Memory.word64_write_of_disjoint, Memory.word64_write_of_disjoint, h.slotCount_eq]
    all_goals simp only [readAt, slotCountAt, cacheLine, Memory.length_bytes64]; omega
  · rw [Memory.word64_write_of_disjoint, Memory.word64_write_bytes64, List.length_nil, show UInt64.ofNat 0 = 0 from rfl,
      UInt64.add_zero]
    simp only [readAt, cacheLine]
    omega

end Lane

/-! ## Turns of the two sides of a lane -/

/-- A well-formed event of a kind. -/
abbrev EventOf (kind : ControlKind) := { event : ControlEvent // event.WellFormed ∧ event.kind = kind }

/-- What the two sides of the lane of a kind do: one appends an event, the other takes the oldest. -/
inductive LaneTurn (kind : ControlKind) where
  | push (event : EventOf kind)
  | pop

/-- What the pushing side was told, if it was its turn. -/
def LaneReply.toPush : LaneReply → Option (Except Error Unit)
  | pushed result => some result
  | _ => none

namespace LaneTurn

variable {kind : ControlKind}

/-- The turn appends. -/
def appends : LaneTurn kind → Bool
  | push _ => true
  | pop => false

/-- A turn on a queue of up to `slots` events. -/
def onQueue (slots : Nat) : LaneTurn kind → List (EventOf kind) → LaneReply × List (EventOf kind)
  | push event, queue =>
    if slots ≤ queue.length then (.pushed (.error (.laneFull kind)), queue) else (.pushed (.ok ()), queue ++ [event])
  | pop, queue => (.found (queue.head?.map (·.1)), queue.tail)

/-- A turn on a queue that loses what a lane loses: beside the events, the number taken counts. -/
def onRing (slots : Nat) : LaneTurn kind → UInt64 × List (EventOf kind) → LaneReply × (UInt64 × List (EventOf kind))
  | push event, (taken, queue) =>
    if slots ≤ queue.length then (.pushed (.error (.laneFull kind)), (taken, queue))
    else (.pushed (.ok ()), (taken, Lane.lapped slots (taken + .ofNat queue.length) queue event ++ [event]))
  | pop, (taken, []) => (.found none, (taken, []))
  | pop, (taken, event :: queue) => (.found (some event.1), (taken + 1, queue))

/-- The call of the lanes that a turn is. -/
def call : LaneTurn kind → LaneCall
  | push event => .push event.1
  | pop => .pop kind

/-- A turn on the lane in memory. -/
def onLane (lanes : EventLanes) (turn : LaneTurn kind) (m : Memory) : LaneReply × Memory := turn.call.onLanes lanes m

/-- The events that a turn appends. -/
def accepted : LaneTurn kind → LaneReply → List ControlEvent
  | push event, .pushed (.ok _) => [event.1]
  | _, _ => []

/-- The events that a turn hands out. -/
def handedOut : LaneTurn kind → LaneReply → List ControlEvent
  | pop, .found event => event.toList
  | _, _ => []

/-! ### What a bounded queue does -/

/-- **A queue hands out what it was given, each event once and in order**, and it never holds more than it has room
for. -/
theorem onQueue_conserves (slots : Nat) (turns : List (LaneTurn kind)) {queue : List (EventOf kind)}
    (h : queue.length ≤ slots) :
    let run := transcript (onQueue slots) turns queue
    queue.map (·.1) ++ (List.zipWith accepted turns run.1).flatten =
        (List.zipWith handedOut turns run.1).flatten ++ run.2.map (·.1) ∧
      run.2.length ≤ slots := by
  induction turns generalizing queue with
  | nil => exact ⟨List.append_nil _, h⟩
  | cons turn turns ih =>
    simp only [transcript, List.zipWith_cons_cons, List.flatten_cons]
    cases turn with
    | push event =>
      by_cases hfull : slots ≤ queue.length
      · simp only [onQueue, if_pos hfull]
        exact ih h
      · simp only [onQueue, if_neg hfull]
        have hnext : (queue ++ [event]).length ≤ slots := by
          rw [List.length_append, List.length_singleton]
          omega
        obtain ⟨hsame, hroom⟩ := ih hnext
        refine ⟨?_, hroom⟩
        rw [List.map_append, List.append_assoc] at hsame
        exact hsame
    | pop =>
      cases queue with
      | nil => exact ih h
      | cons event queue =>
        obtain ⟨hsame, hroom⟩ := ih (Nat.le_of_succ_le h)
        exact ⟨congrArg (event.1 :: ·) hsame, hroom⟩

/-! ### The lane, the ring and the queue -/

section Compare

variable {lanes : EventLanes} {taken : UInt64} {queue queue' : List (EventOf kind)} {m : Memory} {slots : Nat}

/-- The lane holds these events. -/
def Carries (lanes : EventLanes) (m : Memory) (ring : UInt64 × List (EventOf kind)) : Prop :=
  (lanes.lane kind).Holds lanes.slots ring.1 (ring.2.map fun event => event.1.encode) m

/-- A turn on a lane, whatever its counters are. -/
theorem onLane_step (turn : LaneTurn kind) (h : Carries lanes m (taken, queue)) :
    (turn.onLane lanes m).1 = (turn.onRing lanes.slots (taken, queue)).1 ∧
      Carries lanes (turn.onLane lanes m).2 (turn.onRing lanes.slots (taken, queue)).2 := by
  have hlength : (queue.map fun event => event.1.encode).length = queue.length := List.length_map _
  simp only [Carries] at h ⊢
  cases turn with
  | push event =>
    obtain ⟨event, hwell, rfl⟩ := event
    simp only [onLane, call, LaneCall.onLanes, EventLanes.push, onRing, Access.run_bind]
    by_cases hfull : lanes.slots ≤ queue.length
    · rw [if_pos hfull, Lane.run_push_of_full h (by rwa [hlength])]
      exact ⟨rfl, h⟩
    · have hlt : (queue.map fun event => event.1.encode).length < lanes.slots := by omega
      have hheld := h.push_lapped hlt event.kind.tag event.value
      have htrue : (((lanes.lane event.kind).push event.kind.tag event.value).run m).1 = true := by
        rw [Lane.run_push_of_lt h hlt]
      rw [hlength] at hheld
      rw [if_neg hfull, htrue]
      refine ⟨rfl, ?_⟩
      rw [List.map_append, Lane.map_lapped]
      exact hheld
  | pop =>
    have hfound := Lane.run_take h kind true
    have hheld := h.take kind true
    simp only [onLane, call, LaneCall.onLanes, EventLanes.pop]
    cases queue with
    | nil =>
      have hl : Lane.leftover kind true [] = [] := rfl
      simp only [List.map_nil, hl, List.length_nil, Nat.sub_zero] at hheld hfound
      rw [show UInt64.ofNat 0 = 0 from rfl, UInt64.add_zero] at hheld
      exact ⟨congrArg LaneReply.found hfound, hheld⟩
    | cons event queue =>
      obtain ⟨event, hwell, rfl⟩ := event
      have he : LaneEntry.event? event.kind event.encode = some event := by
        rw [LaneEntry.event?_encode, if_pos hwell]
      have hl : Lane.leftover event.kind true (event.encode :: queue.map fun event => event.1.encode) =
          queue.map fun event => event.1.encode := by
        rw [Lane.leftover, if_pos rfl, Lane.fromEvent_cons_of_some he, List.tail_cons]
      simp only [List.map_cons, hl, List.length_cons, Nat.add_sub_cancel_left] at hheld hfound
      rw [Lane.fromEvent_cons_of_some he, List.head?_cons, Option.bind_some, he] at hfound
      exact ⟨congrArg LaneReply.found hfound, hheld⟩

/-- **A lane answers every sequence of turns as a queue that loses what the wrap of its counters overwrites.** -/
theorem answers_as_ring (turns : List (LaneTurn kind)) (h : Carries lanes m (taken, queue)) :
    (transcript (onLane lanes) turns m).1 = (transcript (onRing lanes.slots) turns (taken, queue)).1 ∧
      Carries lanes (transcript (onLane lanes) turns m).2 (transcript (onRing lanes.slots) turns (taken, queue)).2 :=
  transcript_eq_of_simulation (R := fun _ m ring => Carries lanes m ring) (fun turn _ _ _ h => onLane_step turn h) turns
    h

theorem answers_as_ring_of_holds {start : UInt64} (hslots : lanes.slots = slots)
    (h : (lanes.lane kind).Holds slots start [] m) (turns : List (LaneTurn kind)) :
    (transcript (onLane lanes) turns m).1 = (transcript (onRing slots) turns (start, [])).1 := by
  subst hslots
  have hcarries : Carries lanes m (start, ([] : List (EventOf kind))) := h
  exact (answers_as_ring turns hcarries).1

/-- A queue that loses events has as many as one that does not, so it refuses as many. -/
theorem onRing_refuses_step (turn : LaneTurn kind) (h : queue.length = queue'.length) :
    (turn.onRing slots (taken, queue)).1.toPush = (turn.onQueue slots queue').1.toPush ∧
      (turn.onRing slots (taken, queue)).2.2.length = (turn.onQueue slots queue').2.length := by
  cases turn with
  | push event =>
    simp only [onRing, onQueue, ← h]
    split
    · exact ⟨rfl, h⟩
    · simp [h]
  | pop =>
    cases queue with
    | nil =>
      obtain rfl : queue' = [] := List.eq_nil_of_length_eq_zero h.symm
      exact ⟨rfl, rfl⟩
    | cons event queue => exact ⟨rfl, by simp [onRing, onQueue, ← h]⟩

theorem onRing_refuses (turns : List (LaneTurn kind)) (h : queue.length = queue'.length) :
    (transcript (onRing slots) turns (taken, queue)).1.map LaneReply.toPush =
      (transcript (onQueue slots) turns queue').1.map LaneReply.toPush := by
  induction turns generalizing taken queue queue' with
  | nil => rfl
  | cons turn turns ih =>
    have hstep : (turn.onRing slots (taken, queue)).1.toPush = (turn.onQueue slots queue').1.toPush ∧ _ :=
      onRing_refuses_step turn h
    obtain ⟨hreply, hlength⟩ := hstep
    simp only [transcript, List.map_cons, hreply]
    exact congrArg _ (ih hlength)

/-- Before the wrap, and if the slots go on across it, nothing is lost. -/
theorem onRing_eq_onQueue (turn : LaneTurn kind) (turns : List (LaneTurn kind))
    (h : slots ∣ 2 ^ 64 ∨ taken.toNat + queue.length + (turn :: turns).countP appends ≤ 2 ^ 64) :
    (turn.onRing slots (taken, queue)).1 = (turn.onQueue slots queue).1 ∧
      (turn.onRing slots (taken, queue)).2.2 = (turn.onQueue slots queue).2 ∧
      (slots ∣ 2 ^ 64 ∨ (turn.onRing slots (taken, queue)).2.1.toNat +
        (turn.onRing slots (taken, queue)).2.2.length + turns.countP appends ≤ 2 ^ 64) := by
  cases turn with
  | push event =>
    rw [List.countP_cons_of_pos rfl] at h
    have hkept : Lane.lapped slots (taken + .ofNat queue.length) queue event = queue := by
      rcases h with hdvd | hroom
      · exact Lane.lapped_of_dvd _ _ _ _ hdvd
      · apply Lane.lapped_of_le
        rw [UInt64.toNat_add, UInt64.toNat_ofNat', Nat.mod_eq_of_lt (a := queue.length) (by omega),
          Nat.mod_eq_of_lt (by omega)]
        omega
    simp only [onRing, onQueue, hkept]
    split
    · refine ⟨rfl, rfl, h.imp id fun hroom => ?_⟩
      dsimp only
      omega
    · refine ⟨rfl, rfl, h.imp id fun hroom => ?_⟩
      rw [List.length_append, List.length_singleton]
      dsimp only
      omega
  | pop =>
    rw [List.countP_cons_of_neg (by simp [appends])] at h
    cases queue with
    | nil => exact ⟨rfl, rfl, h⟩
    | cons event queue =>
      refine ⟨rfl, rfl, h.imp id fun hroom => ?_⟩
      have hnext : (taken + 1).toNat ≤ taken.toNat + 1 := by
        rw [UInt64.toNat_add]
        exact Nat.mod_le _ _
      simp only [onRing, List.length_cons] at hroom ⊢
      omega

end Compare

/-! ### Lanes that start anywhere -/

/-- Lanes of this many slots answer every sequence of turns as a queue does, wherever their counters start. -/
def AnswersAsQueue (kind : ControlKind) (slots : Nat) : Prop :=
  ∀ (lanes : EventLanes) (start : UInt64) (m : Memory) (turns : List (LaneTurn kind)), lanes.slots = slots →
    (lanes.lane kind).Holds slots start [] m →
      (transcript (onLane lanes) turns m).1 = (transcript (onQueue slots) turns []).1

/-- Lanes that were just set up, but for the two counters of one of them. -/
def startedAt (lanes : EventLanes) (kind : ControlKind) (start : UInt64) : Memory :=
  (((lanes.lane kind).wind start).run (lanes.init.run .zeroed).2).2

theorem holds_startedAt (lanes : EventLanes) (hp : 0 < lanes.slots) (hl : lanes.slots < 2 ^ 64) (kind : ControlKind)
    (start : UInt64) : (lanes.lane kind).Holds lanes.slots start [] (startedAt lanes kind start) :=
  (lanes.holds_init hp hl .zeroed kind).wind start

/-- Of every kind there are two events. -/
theorem exists_ne_event (kind : ControlKind) : ∃ a b : EventOf kind, a.1 ≠ b.1 := by
  cases kind with
  | bitrate => exact ⟨⟨.bitrate 1, by decide⟩, ⟨.bitrate 2, by decide⟩, by decide⟩
  | framerate => exact ⟨⟨.framerate 1, by decide⟩, ⟨.framerate 2, by decide⟩, by decide⟩
  | pointer => exact ⟨⟨.pointer true, by decide⟩, ⟨.pointer false, by decide⟩, by decide⟩
  | idr => exact ⟨⟨.idr true, by decide⟩, ⟨.idr false, by decide⟩, by decide⟩

section Laps

variable {slots : Nat} {queue : List (EventOf kind)}

/-- As long as no more entries are pending than the slots are off by after the wrap, nothing is lost. -/
theorem onRing_pushes (hs : 2 ^ 64 % slots < slots) (taken : UInt64) (events : List (EventOf kind))
    (h : queue.length + events.length ≤ 2 ^ 64 % slots) :
    (transcript (onRing slots) (events.map push) (taken, queue)).2 = (taken, queue ++ events) := by
  induction events generalizing queue with
  | nil => rw [List.append_nil]; rfl
  | cons event events ih =>
    rw [List.length_cons] at h
    have hkept : Lane.lapped slots (taken + .ofNat queue.length) queue event = queue := if_neg fun hlap => by omega
    have hnext : (queue ++ [event]).length + events.length ≤ 2 ^ 64 % slots := by
      rw [List.length_append, List.length_singleton]
      omega
    simp only [List.map_cons, transcript, onRing, if_neg (show ¬slots ≤ queue.length by omega), hkept]
    rw [ih hnext, List.append_assoc]
    rfl

theorem onQueue_pushes (events : List (EventOf kind)) (h : queue.length + events.length ≤ slots) :
    (transcript (onQueue slots) (events.map push) queue).2 = queue ++ events := by
  induction events generalizing queue with
  | nil => rw [List.append_nil]; rfl
  | cons event events ih =>
    rw [List.length_cons] at h
    have hnext : (queue ++ [event]).length + events.length ≤ slots := by
      rw [List.length_append, List.length_singleton]
      omega
    simp only [List.map_cons, transcript, onQueue, if_neg (show ¬slots ≤ queue.length by omega)]
    rw [ih hnext, List.append_assoc]
    rfl

/-- Fill a lane right up to the wrap, append one event more, and take the oldest: it is the newest. -/
theorem onRing_laps (hs : 2 ^ 64 % slots < slots) {first : EventOf kind} {events : List (EventOf kind)}
    (last : EventOf kind) (h : (first :: events).length = 2 ^ 64 % slots) :
    (transcript (onRing slots) ((first :: events).map push ++ [push last, pop])
      (.ofNat (2 ^ 64 - 2 ^ 64 % slots), [])).1.getLast? = some (.found (some last.1)) := by
  have hwrapped : (UInt64.ofNat (2 ^ 64 - 2 ^ 64 % slots) + .ofNat (first :: events).length).toNat = 0 := by
    rw [h, ← UInt64.ofNat_add, Nat.sub_add_cancel (Nat.mod_le _ _)]
    rfl
  have hlost : Lane.lapped slots (UInt64.ofNat (2 ^ 64 - 2 ^ 64 % slots) + .ofNat (first :: events).length)
      (first :: events) last = last :: events := by
    rw [Lane.lapped, if_pos ⟨by rw [hwrapped, ← h]; exact Nat.succ_pos _, Nat.le_of_eq h.symm⟩, h, Nat.sub_self]
    rfl
  have hfills : ([] : List (EventOf kind)).length + (first :: events).length ≤ 2 ^ 64 % slots :=
    Nat.le_of_eq ((Nat.zero_add _).trans h)
  rw [transcript_append, onRing_pushes hs _ _ hfills, List.getLast?_append]
  simp only [transcript, onRing, List.nil_append, if_neg (show ¬slots ≤ (first :: events).length by omega), hlost]
  rfl

/-- A queue gives the oldest. -/
theorem onQueue_laps {first last : EventOf kind} {events : List (EventOf kind)}
    (h : (first :: events).length < slots) :
    (transcript (onQueue slots) ((first :: events).map push ++ [push last, pop]) []).1.getLast? =
      some (.found (some first.1)) := by
  rw [transcript_append, onQueue_pushes _ (by rw [List.length_nil, Nat.zero_add]; exact Nat.le_of_lt h),
    List.getLast?_append]
  simp only [transcript, onQueue, List.nil_append, if_neg (show ¬slots ≤ (first :: events).length by omega)]
  rfl

/-- **Where the slots do not go on across the wrap, a lane is no queue.** -/
theorem dvd_of_answersAsQueue (hp : 0 < slots) (hl : slots < 2 ^ 64) (h : AnswersAsQueue kind slots) :
    slots ∣ 2 ^ 64 := by
  refine Nat.dvd_of_mod_eq_zero (Nat.eq_zero_of_not_pos fun hpos => ?_)
  have hrest : 2 ^ 64 % slots < slots := Nat.mod_lt _ hp
  obtain ⟨first, last, hne⟩ := exists_ne_event kind
  have hlength : (first :: List.replicate (2 ^ 64 % slots - 1) first).length = 2 ^ 64 % slots := by
    rw [List.length_cons, List.length_replicate]
    omega
  have hheld := holds_startedAt ⟨0, slots⟩ hp hl kind (.ofNat (2 ^ 64 - 2 ^ 64 % slots))
  have hring := onRing_laps hrest last hlength
  rw [← answers_as_ring_of_holds rfl hheld, h _ _ _ _ rfl hheld, onQueue_laps (by rwa [hlength])] at hring
  exact hne (Option.some.inj (LaneReply.found.inj (Option.some.inj hring)))

end Laps

/-- **Across the wrap of its counters, a lane is a queue if and only if its number of slots divides `2 ^ 64`.** Wherever
the counters start, it refuses what a queue refuses, that is, an event that comes while all slots are taken; it hands
out what `onRing` hands out; and it does what a queue does, which hands out every accepted event once and in order, if
the number of slots divides `2 ^ 64` or if the counters do not come past it. -/
theorem answers_as_queue_iff_dvd {slots : Nat} (hp : 0 < slots) (hl : slots < 2 ^ 64) (kind : ControlKind) :
    (∀ (lanes : EventLanes) (start : UInt64) (m : Memory) (turns : List (LaneTurn kind)), lanes.slots = slots →
      (lanes.lane kind).Holds slots start [] m →
        let real := transcript (onLane lanes) turns m
        let ring := transcript (onRing slots) turns (start, [])
        let queue := transcript (onQueue slots) turns []
        real.1 = ring.1 ∧ real.1.map LaneReply.toPush = queue.1.map LaneReply.toPush ∧
          (slots ∣ 2 ^ 64 ∨ start.toNat + turns.countP appends ≤ 2 ^ 64 →
            real.1 = queue.1 ∧
              (List.zipWith accepted turns real.1).flatten =
                (List.zipWith handedOut turns real.1).flatten ++ queue.2.map (·.1))) ∧
      (AnswersAsQueue kind slots ↔ slots ∣ 2 ^ 64) := by
  have hqueue (start : UInt64) (turns : List (LaneTurn kind))
      (h : slots ∣ 2 ^ 64 ∨ start.toNat + turns.countP appends ≤ 2 ^ 64) :
      (transcript (onRing slots) turns (start, [])).1 = (transcript (onQueue slots) turns []).1 := by
    refine (transcript_eq_of_simulation (R := fun turns ring queue => ring.2 = queue ∧
      (slots ∣ 2 ^ 64 ∨ ring.1.toNat + ring.2.length + turns.countP appends ≤ 2 ^ 64)) ?_ turns ⟨rfl, h⟩).1
    rintro turn turns ⟨taken, queue⟩ _ ⟨rfl, hroom⟩
    exact onRing_eq_onQueue turn turns hroom
  refine ⟨fun lanes start m turns hslots hheld => ?_, dvd_of_answersAsQueue hp hl, fun hdvd => ?_⟩
  · intro real ring queue
    have hreal : real.1 = ring.1 := answers_as_ring_of_holds hslots hheld turns
    refine ⟨hreal, (congrArg _ hreal).trans (onRing_refuses turns rfl), fun h => ?_⟩
    have hsame : real.1 = queue.1 := hreal.trans (hqueue start turns h)
    refine ⟨hsame, ?_⟩
    rw [hsame]
    exact (onQueue_conserves slots turns (show ([] : List (EventOf kind)).length ≤ slots from Nat.zero_le _)).1
  · intro lanes start m turns hslots hheld
    exact (answers_as_ring_of_holds hslots hheld turns).trans (hqueue start turns (.inl hdvd))

/-- Four slots go on across the wrap, and three do not. -/
theorem answers_as_queue_iff_dvd_four :
    let turns : List (LaneTurn .bitrate) := [push ⟨.bitrate 5, by decide⟩, push ⟨.bitrate 7, by decide⟩, pop, pop]
    0 < 4 ∧ 4 < 2 ^ 64 ∧ AnswersAsQueue .bitrate 4 ∧ ¬AnswersAsQueue .bitrate 3 ∧
      (transcript (onLane ⟨0, 4⟩) turns (startedAt ⟨0, 4⟩ .bitrate 0xffffffffffffffff)).1 =
        [.pushed (.ok ()), .pushed (.ok ()), .found (some (.bitrate 5)), .found (some (.bitrate 7))] := by
  intro turns
  have hthree := answers_as_queue_iff_dvd (show 0 < 3 by decide) (by decide) .bitrate
  have hfour := answers_as_queue_iff_dvd (show 0 < 4 by decide) (by decide) .bitrate
  have hheld := holds_startedAt ⟨0, 4⟩ (by decide) (by decide) .bitrate 0xffffffffffffffff
  refine ⟨by decide, by decide, hfour.2.2 (by decide), fun h => absurd (hthree.2.1 h) (by decide), ?_⟩
  exact ((hfour.1 ⟨0, 4⟩ _ _ turns rfl hheld).2.2 (.inl (by decide))).1

/-- **A lane of three slots is no queue**: two events are appended to an empty lane; the second is handed out twice, and
the first not at all. -/
theorem pending_event_overwritten :
    let turns : List (LaneTurn .bitrate) := [push ⟨.bitrate 5, by decide⟩, push ⟨.bitrate 7, by decide⟩, pop, pop]
    let m := startedAt ⟨0, 3⟩ .bitrate 0xffffffffffffffff
    ((⟨0, 3⟩ : EventLanes).lane .bitrate).Holds 3 0xffffffffffffffff [] m ∧
      (transcript (onLane ⟨0, 3⟩) turns m).1 =
        [.pushed (.ok ()), .pushed (.ok ()), .found (some (.bitrate 7)), .found (some (.bitrate 7))] ∧
      (transcript (onQueue 3) turns []).1 =
        [.pushed (.ok ()), .pushed (.ok ()), .found (some (.bitrate 5)), .found (some (.bitrate 7))] := by
  intro turns m
  have hheld := holds_startedAt ⟨0, 3⟩ (by decide) (by decide) .bitrate 0xffffffffffffffff
  have hreal := answers_as_ring_of_holds (show EventLanes.slots ⟨0, 3⟩ = 3 from rfl) hheld turns
  exact ⟨hheld, hreal.trans rfl, rfl⟩

end LaneTurn

end MediaChannels
