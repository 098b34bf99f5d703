/-!
# Control events

A control event asks the producer of a channel to change something: its bitrate, its framerate, whether the pointer is
drawn, or that the next frame be a keyframe. In a lane of shared memory an event is a pair of a 32-bit tag and a 64-bit
value.

* `decode?_eq_some_iff`: decoding accepts exactly the pairs that encode a flag, or a rate above zero.
-/

namespace MediaChannels

/-- The four kinds of control event. -/
inductive ControlKind where
  | bitrate
  | framerate
  | pointer
  | idr
  deriving DecidableEq, Repr

namespace ControlKind

/-- All kinds, in the order of their lanes. -/
def all : List ControlKind := [bitrate, framerate, pointer, idr]

/-- Position of the lane that holds events of a kind. -/
def lane : ControlKind → Nat
  | bitrate => 0
  | framerate => 1
  | pointer => 2
  | idr => 3

/-- The number that stands for a kind in shared memory. -/
def tag : ControlKind → UInt32
  | bitrate => 1
  | framerate => 2
  | pointer => 3
  | idr => 4

/-- The kind that a tag stands for. -/
def ofTag? (tag : UInt32) : Option ControlKind :=
  if tag = 1 then some bitrate
  else if tag = 2 then some framerate
  else if tag = 3 then some pointer
  else if tag = 4 then some idr
  else none

/-- The name under which users know a kind. -/
def name : ControlKind → String
  | bitrate => "bitrate"
  | framerate => "framerate"
  | pointer => "pointer"
  | idr => "idr"

/-- The name of a kind inside an error message. -/
def label : ControlKind → String
  | bitrate => "Bitrate"
  | framerate => "Framerate"
  | pointer => "Pointer"
  | idr => "Idr"

theorem mem_all (k : ControlKind) : k ∈ all := by cases k <;> decide

theorem lane_getElem : ∀ (i : Nat) (h : i < all.length), all[i].lane = i := by decide

theorem lane_lt (k : ControlKind) : k.lane < all.length := by cases k <;> decide

@[simp] theorem ofTag?_tag (k : ControlKind) : ofTag? k.tag = some k := by cases k <;> decide

theorem ofTag?_eq_some_iff {t : UInt32} {k : ControlKind} : ofTag? t = some k ↔ t = k.tag := by
  constructor
  · unfold ofTag?
    intro h
    split at h
    · cases h; assumption
    split at h
    · cases h; assumption
    split at h
    · cases h; assumption
    split at h
    · cases h; assumption
    cases h
  · rintro rfl
    exact ofTag?_tag k

end ControlKind

/-- A request to the producer of a channel. Rates are in kilobits and in frames per second. -/
inductive ControlEvent where
  | bitrate (kbps : Int32)
  | framerate (fps : Int32)
  | pointer (visible : Bool)
  | idr (requested : Bool)
  deriving DecidableEq, Repr

namespace ControlEvent

/-- The kind of an event. -/
def kind : ControlEvent → ControlKind
  | bitrate _ => .bitrate
  | framerate _ => .framerate
  | pointer _ => .pointer
  | idr _ => .idr

/-- The value of an event in shared memory: its rate, or one for a flag that is set. -/
def value : ControlEvent → Int64
  | bitrate v => v.toInt64
  | framerate v => v.toInt64
  | pointer b => if b then 1 else 0
  | idr b => if b then 1 else 0

/-- The tag and the value of an event. -/
def encode (e : ControlEvent) : UInt32 × Int64 := (e.kind.tag, e.value)

/-- A rate is a positive number of 32 bits. -/
def rate? (value : Int64) : Option Int32 :=
  if 0 < value.toInt ∧ value.toInt ≤ Int32.maxValue.toInt then some value.toInt32 else none

/-- A flag is zero or one. -/
def flag? (value : Int64) : Option Bool :=
  if value = 0 then some false else if value = 1 then some true else none

/-- The event that a tag and a value encode. -/
def decode? (tag : UInt32) (value : Int64) : Option ControlEvent :=
  (ControlKind.ofTag? tag).bind fun
    | .bitrate => (rate? value).map bitrate
    | .framerate => (rate? value).map framerate
    | .pointer => (flag? value).map pointer
    | .idr => (flag? value).map idr

/-- The events that make sense: flags, and rates above zero. -/
def WellFormed : ControlEvent → Prop
  | bitrate v => 0 < v
  | framerate v => 0 < v
  | pointer _ => True
  | idr _ => True

instance : (e : ControlEvent) → Decidable e.WellFormed
  | bitrate v | framerate v => inferInstanceAs (Decidable (0 < v))
  | pointer _ | idr _ => inferInstanceAs (Decidable True)

theorem rate?_eq_some_iff {value : Int64} {v : Int32} : rate? value = some v ↔ value = v.toInt64 ∧ 0 < v := by
  have hv := v.toInt_le
  have hmax : Int32.maxValue.toInt = 2 ^ 31 - 1 := Int32.toInt_maxValue
  unfold rate?
  constructor
  · intro h
    split at h
    · next hr =>
      cases h
      have hx : value.toInt32.toInt = value.toInt := by
        rw [Int64.toInt_toInt32, Int.bmod_eq_of_le] <;> omega
      refine ⟨Int64.toInt_inj.1 ?_, Int32.lt_iff_toInt_lt.2 ?_⟩
      · rw [Int32.toInt_toInt64, hx]
      · rw [hx]; exact hr.1
    · cases h
  · rintro ⟨rfl, hp⟩
    have hp : 0 < v.toInt := Int32.lt_iff_toInt_lt.1 hp
    rw [Int32.toInt_toInt64, if_pos ⟨hp, hv⟩, Int32.toInt32_toInt64]

theorem flag?_eq_some_iff {value : Int64} {b : Bool} : flag? value = some b ↔ value = if b then 1 else 0 := by
  unfold flag?
  constructor
  · intro h
    split at h
    · cases h; assumption
    split at h
    · cases h; assumption
    cases h
  · rintro rfl
    cases b <;> decide

/-- Decoding accepts exactly the pairs that encode a flag, or a rate above zero. -/
theorem decode?_eq_some_iff {tag : UInt32} {value : Int64} {e : ControlEvent} :
    decode? tag value = some e ↔ e.encode = (tag, value) ∧ e.WellFormed := by
  unfold decode? encode
  rw [Option.bind_eq_some_iff]
  constructor
  · rintro ⟨k, hk, he⟩
    rw [ControlKind.ofTag?_eq_some_iff] at hk
    subst hk
    cases k <;> obtain ⟨v, hv, rfl⟩ := Option.map_eq_some_iff.1 he
    · obtain ⟨rfl, hp⟩ := rate?_eq_some_iff.1 hv
      exact ⟨rfl, hp⟩
    · obtain ⟨rfl, hp⟩ := rate?_eq_some_iff.1 hv
      exact ⟨rfl, hp⟩
    · exact ⟨by rw [flag?_eq_some_iff.1 hv]; rfl, trivial⟩
    · exact ⟨by rw [flag?_eq_some_iff.1 hv]; rfl, trivial⟩
  · rintro ⟨he, hw⟩
    cases he
    refine ⟨e.kind, ControlKind.ofTag?_tag _, ?_⟩
    cases e with
    | bitrate v => exact Option.map_eq_some_iff.2 ⟨v, rate?_eq_some_iff.2 ⟨rfl, hw⟩, rfl⟩
    | framerate v => exact Option.map_eq_some_iff.2 ⟨v, rate?_eq_some_iff.2 ⟨rfl, hw⟩, rfl⟩
    | pointer b => exact Option.map_eq_some_iff.2 ⟨b, flag?_eq_some_iff.2 rfl, rfl⟩
    | idr b => exact Option.map_eq_some_iff.2 ⟨b, flag?_eq_some_iff.2 rfl, rfl⟩

end ControlEvent

end MediaChannels
