import MediaChannels.EventLanes

/-!
# Entries of event lanes

What the pairs of a tag and a value in a lane stand for, and how lists of them are searched for events.

* `decodeFor?_eq`: a lane reads an entry as an event if its tag is that of the kind and its value is a positive rate of
  32 bits, or a flag.
* `event?_encode`: a well-formed event is read as itself.
* `fromEvent`: the search for the oldest event, which drops what is malformed and nothing else (`eventsOf_fromEvent`).
-/

namespace MediaChannels

/-- What stands in a slot of a lane: a tag and a value. -/
abbrev LaneEntry := UInt32 × Int64

/-- The event of a kind that a value stands for. -/
def ControlKind.event (kind : ControlKind) (value : Int64) : ControlEvent :=
  match kind with
  | .bitrate => .bitrate value.toInt32
  | .framerate => .framerate value.toInt32
  | .pointer => .pointer (value = 1)
  | .idr => .idr (value = 1)

namespace LaneEntry

/-- An entry makes sense in the lane of a kind: it has the tag of the kind, and its value is a positive rate of 32 bits,
or a flag. -/
def WellFormed (kind : ControlKind) (entry : LaneEntry) : Prop :=
  entry.1 = kind.tag ∧
    match kind with
    | .bitrate | .framerate => 0 < entry.2.toInt ∧ entry.2.toInt ≤ Int32.maxValue.toInt
    | .pointer | .idr => entry.2 = 0 ∨ entry.2 = 1

instance : (kind : ControlKind) → (entry : LaneEntry) → Decidable (entry.WellFormed kind)
  | .bitrate, _ | .framerate, _ | .pointer, _ | .idr, _ => inferInstanceAs (Decidable (_ ∧ _))

/-- The event that an entry stands for in the lane of a kind; none if it is malformed. -/
def event? (kind : ControlKind) (entry : LaneEntry) : Option ControlEvent :=
  if entry.WellFormed kind then some (kind.event entry.2) else none

/-- Rates, among the events of their own kind. -/
theorem filter_rate? {kind : ControlKind} {f : Int32 → ControlEvent} (hf : ∀ v, (f v).kind = kind) (value : Int64) :
    ((ControlEvent.rate? value).map f).filter (fun e => decide (e.kind = kind)) =
      if 0 < value.toInt ∧ value.toInt ≤ Int32.maxValue.toInt then some (f value.toInt32) else none := by
  rw [ControlEvent.rate?]
  split <;> simp [Option.filter, hf]

/-- Flags, among the events of their own kind. -/
theorem filter_flag? {kind : ControlKind} {f : Bool → ControlEvent} (hf : ∀ b, (f b).kind = kind) (value : Int64) :
    ((ControlEvent.flag? value).map f).filter (fun e => decide (e.kind = kind)) =
      if value = 0 ∨ value = 1 then some (f (value = 1)) else none := by
  rw [ControlEvent.flag?]
  by_cases h0 : value = 0
  · simp [Option.filter, hf, h0]
  · by_cases h1 : value = 1 <;> simp [Option.filter, hf, h0, h1]

/-- A lane reads its entries so. -/
theorem decodeFor?_eq (kind : ControlKind) (tag : UInt32) (value : Int64) :
    Lane.decodeFor? kind tag value = event? kind (tag, value) := by
  by_cases ht : tag = kind.tag
  · subst ht
    rw [Lane.decodeFor?, ControlEvent.decode?, ControlKind.ofTag?_tag, Option.bind_some, event?]
    cases kind with
    | bitrate =>
      simp only [filter_rate? (f := .bitrate) fun _ => rfl, WellFormed, true_and]
      rfl
    | framerate =>
      simp only [filter_rate? (f := .framerate) fun _ => rfl, WellFormed, true_and]
      rfl
    | pointer =>
      simp only [filter_flag? (f := .pointer) fun _ => rfl, WellFormed, true_and]
      rfl
    | idr =>
      simp only [filter_flag? (f := .idr) fun _ => rfl, WellFormed, true_and]
      rfl
  · rw [event?, if_neg fun h => ht h.1]
    apply Option.eq_none_iff_forall_ne_some.2
    intro e he
    obtain ⟨hencode, -, hkind⟩ := Lane.decodeFor?_eq_some_iff.1 he
    apply ht
    rw [← hkind]
    exact (congrArg Prod.fst hencode).symm

theorem wellFormed_encode_iff (e : ControlEvent) : WellFormed e.kind e.encode ↔ e.WellFormed := by
  have hrate (v : Int32) : 0 < v.toInt64.toInt ∧ v.toInt64.toInt ≤ Int32.maxValue.toInt ↔ 0 < v := by
    rw [Int32.toInt_toInt64, Int32.lt_iff_toInt_lt]
    exact and_iff_left v.toInt_le
  cases e with
  | bitrate v => exact (and_iff_right rfl).trans (hrate v)
  | framerate v => exact (and_iff_right rfl).trans (hrate v)
  | pointer b => cases b <;> decide
  | idr b => cases b <;> decide

/-- What an event is stored as is read as that event, if it is well formed. -/
theorem event?_encode (e : ControlEvent) : event? e.kind e.encode = if e.WellFormed then some e else none := by
  have he : e.kind.event e.value = e := by
    cases e with
    | bitrate v => exact congrArg ControlEvent.bitrate v.toInt32_toInt64
    | framerate v => exact congrArg ControlEvent.framerate v.toInt32_toInt64
    | pointer b => cases b <;> rfl
    | idr b => cases b <;> rfl
  simp only [event?, wellFormed_encode_iff]
  rw [show e.encode.2 = e.value from rfl, he]

end LaneEntry

namespace Lane

/-! ## Searching for events -/

/-- The entries from the oldest event on. -/
def fromEvent (kind : ControlKind) (entries : List LaneEntry) : List LaneEntry :=
  entries.dropWhile fun entry => (entry.event? kind).isNone

theorem fromEvent_cons_of_none {kind : ControlKind} {entry : LaneEntry} {rest : List LaneEntry}
    (h : entry.event? kind = none) : fromEvent kind (entry :: rest) = fromEvent kind rest :=
  List.dropWhile_cons_of_pos (by rw [h]; rfl)

theorem fromEvent_cons_of_some {kind : ControlKind} {entry : LaneEntry} {rest : List LaneEntry} {event : ControlEvent}
    (h : entry.event? kind = some event) : fromEvent kind (entry :: rest) = entry :: rest :=
  List.dropWhile_cons_of_neg (by rw [h]; exact Bool.false_ne_true)

theorem length_fromEvent_le (kind : ControlKind) (entries : List LaneEntry) :
    (fromEvent kind entries).length ≤ entries.length := (List.dropWhile_sublist _).length_le

/-- What is left of the entries after the oldest event was looked at, or taken. -/
def leftover (kind : ControlKind) (consume : Bool) (entries : List LaneEntry) : List LaneEntry :=
  if consume then (fromEvent kind entries).tail else fromEvent kind entries

theorem length_leftover_le (kind : ControlKind) (consume : Bool) (entries : List LaneEntry) :
    (leftover kind consume entries).length ≤ entries.length := by
  have h := length_fromEvent_le kind entries
  rw [leftover]
  split
  · exact Nat.le_trans (List.tail_sublist _).length_le h
  · exact h

/-- The events among some entries. -/
def eventsOf (kind : ControlKind) (entries : List LaneEntry) : List ControlEvent := entries.filterMap (·.event? kind)

/-- What comes before the oldest event is no event. -/
theorem eventsOf_fromEvent (kind : ControlKind) (entries : List LaneEntry) :
    eventsOf kind (fromEvent kind entries) = eventsOf kind entries := by
  induction entries with
  | nil => rfl
  | cons entry rest ih =>
    cases he : entry.event? kind with
    | none => rw [fromEvent_cons_of_none he, ih, eventsOf, eventsOf, List.filterMap_cons_none he]
    | some event => rw [fromEvent_cons_of_some he]

/-- The search stops at an event. -/
theorem exists_event_of_fromEvent {kind : ControlKind} {entries rest : List LaneEntry} {entry : LaneEntry}
    (h : fromEvent kind entries = entry :: rest) : ∃ event, entry.event? kind = some event := by
  have hn := List.head?_dropWhile_not (fun entry : LaneEntry => (entry.event? kind).isNone) entries
  rw [← fromEvent, h] at hn
  cases he : entry.event? kind with
  | none =>
    rw [List.head?_cons] at hn
    simp [he] at hn
  | some event => exact ⟨event, rfl⟩

end Lane

end MediaChannels
