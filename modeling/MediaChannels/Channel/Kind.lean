import MediaChannels.Error
import MediaChannels.Text.Numeral

/-!
# Channel kinds

A segment carries four logical channels. Users select one by its name, in any case, or by its index.

* `ofIndex_index`, `parse_name`: an index and a name lead back to their channel.
-/

namespace MediaChannels

/-- The four channels of a segment. -/
inductive ChannelKind where
  | video0
  | video1
  | audio
  | input
  deriving DecidableEq, Repr

namespace ChannelKind

/-- All channels, in the order of their indices. -/
def all : List ChannelKind := [video0, video1, audio, input]

/-- Position of a channel in its segment. -/
def index : ChannelKind → Nat
  | video0 => 0
  | video1 => 1
  | audio => 2
  | input => 3

/-- The name under which users know a channel. -/
def name : ChannelKind → String
  | video0 => "video0"
  | video1 => "video1"
  | audio => "audio"
  | input => "input"

/-- Whether a channel carries video. -/
def isVideo : ChannelKind → Bool
  | video0 | video1 => true
  | audio | input => false

/-- The channel at an index. -/
def ofIndex (index : Nat) : Except Error ChannelKind :=
  match all[index]? with
  | some kind => .ok kind
  | none => .error (.indexOutOfRange index all.length)

/-- Whether two texts differ in the case of ASCII letters only. -/
def sameLetters (s t : List Char) : Bool := s.map Char.toLower == t.map Char.toLower

/-- The channel that a text selects: an index of 64 bits, or a name. -/
def parse (s : String) : Except Error ChannelKind :=
  match Text.unsigned? (1 <<< 64) s.toList with
  | some index => ofIndex index
  | none =>
    match all.find? fun kind => sameLetters kind.name.toList s.toList with
    | some kind => .ok kind
    | none => .error (.unknownChannel s)

@[simp] theorem ofIndex_index (k : ChannelKind) : ofIndex k.index = .ok k := by cases k <;> rfl

theorem mem_all (k : ChannelKind) : k ∈ all := by cases k <;> decide

theorem index_getElem : ∀ (i : Nat) (h : i < all.length), all[i].index = i := by decide

theorem index_lt (k : ChannelKind) : k.index < all.length := by cases k <;> decide

theorem parse_name (k : ChannelKind) : parse k.name = .ok k := by cases k <;> rfl

end ChannelKind

end MediaChannels
