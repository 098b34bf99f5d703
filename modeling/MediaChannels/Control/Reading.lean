import MediaChannels.Error
import MediaChannels.Text.Blank
import MediaChannels.Text.Numeral

/-!
# Control events from outside

Events arrive as text (`bitrate=5000`, `idr`) and as raw pairs of a tag and a value; both ways refuse what is not well
formed.

* `wellFormed_of_ofText?`: a text is never read as an event that a lane would drop.
* `decode_eq_ok_iff`: a pair is accepted exactly if it encodes a well-formed event.
-/

namespace MediaChannels.ControlEvent

/-- The text before the first `=` and, if there is one, the text after it. -/
def splitAssignment : List Char → List Char × Option (List Char)
  | [] => ([], none)
  | c :: r => if c = '=' then ([], some r) else let (name, value) := splitAssignment r; (c :: name, value)

/-- A rate as text: a positive number of 32 bits. -/
def rateOfText? (value : Option (List Char)) : Option Int32 :=
  (value.bind (Text.signed? (1 <<< 31))).bind fun n => if 0 < n then some (Int32.ofInt n) else none

/-- A flag as text; a flag without a value is set. -/
def flagOfText? : Option (List Char) → Option Bool
  | none => some true
  | some v =>
    if v = "true".toList ∨ v = "1".toList then some true
    else if v = "false".toList ∨ v = "0".toList then some false
    else none

/-- The event that a text names: a kind, in any case, and after an `=` its value. Blanks around both are ignored. -/
def ofText? (s : List Char) : Option ControlEvent :=
  let (name, value) := splitAssignment s
  let name := (Text.trimBlanks name).map Char.toLower
  let value := value.map Text.trimBlanks
  if name = "bitrate".toList then (rateOfText? value).map bitrate
  else if name = "framerate".toList then (rateOfText? value).map framerate
  else if name = "pointer".toList then (flagOfText? value).map pointer
  else if name = "idr".toList then (flagOfText? value).map idr
  else none

/-- `ofText?` for users, who are told what was refused. -/
def parse (s : String) : Except Error ControlEvent :=
  match ofText? s.toList with
  | some e => .ok e
  | none => .error (.configuration s!"invalid control event '{s}'")

/-- `decode?` with the pair in the error. -/
def decode (tag : UInt32) (value : Int64) : Except Error ControlEvent :=
  match decode? tag value with
  | some e => .ok e
  | none => .error (.malformedEvent tag value)

theorem decode_eq_ok_iff {tag : UInt32} {value : Int64} {e : ControlEvent} :
    decode tag value = .ok e ↔ e.encode = (tag, value) ∧ e.WellFormed := by
  rw [← decode?_eq_some_iff, decode]
  cases decode? tag value <;> simp

theorem pos_of_rateOfText? {value : Option (List Char)} {v : Int32} (h : rateOfText? value = some v) : 0 < v := by
  obtain ⟨n, hn, hv⟩ := Option.bind_eq_some_iff.1 h
  obtain ⟨s, -, hs⟩ := Option.bind_eq_some_iff.1 hn
  have hb := Text.signed?_bounds (by decide) hs
  split at hv
  · cases hv
    rw [Int32.lt_iff_toInt_lt, Int32.toInt_ofInt_of_le (by omega) (by omega)]
    assumption
  · cases hv

theorem wellFormed_of_ofText? {s : List Char} {e : ControlEvent} (h : ofText? s = some e) : e.WellFormed := by
  simp only [ofText?] at h
  split at h
  · obtain ⟨v, hv, rfl⟩ := Option.map_eq_some_iff.1 h
    exact pos_of_rateOfText? hv
  split at h
  · obtain ⟨v, hv, rfl⟩ := Option.map_eq_some_iff.1 h
    exact pos_of_rateOfText? hv
  split at h
  · obtain ⟨v, -, rfl⟩ := Option.map_eq_some_iff.1 h
    trivial
  split at h
  · obtain ⟨v, -, rfl⟩ := Option.map_eq_some_iff.1 h
    trivial
  cases h

end MediaChannels.ControlEvent
