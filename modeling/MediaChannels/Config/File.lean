import MediaChannels.Config.Reader
import MediaChannels.Text.Utf8

/-!
# Configuration files

A configuration is read from a file, which has to be UTF-8.

* `HostConfig.load_eq_ok_iff`: what is loaded is what the text of the file gives.
-/

namespace MediaChannels

namespace HostConfig

/-- The fault of a file whose bytes are no text. -/
def notText : SystemError := .other "stream did not contain valid UTF-8"

/-- Reads a configuration from the bytes of the file that `path` leads to, or from the fault of reading them. -/
def load (path : String) (contents : Except SystemError (List UInt8)) : Except Error HostConfig :=
  let text := contents.bind fun bytes =>
    match Utf8.decode? bytes with
    | some text => .ok text
    | none => .error notText
  match text with
  | .error e => .error (.configuration s!"cannot read {path}: {e.message}")
  | .ok text => ofText text

theorem load_eq_ok_iff {path : String} {contents : Except SystemError (List UInt8)} {c : HostConfig} :
    load path contents = .ok c ↔
      ∃ bytes text, contents = .ok bytes ∧ Utf8.decode? bytes = some text ∧ ofText text = .ok c := by
  cases contents with
  | error e => simp [load, Except.bind]
  | ok bytes =>
    cases htext : Utf8.decode? bytes with
    | none => simp [load, Except.bind, htext]
    | some text => simp [load, Except.bind, htext]

end HostConfig

end MediaChannels
