import MediaChannels.Control.Event
import MediaChannels.Session.State
import MediaChannels.Text.Hex

/-!
# Errors

Everything that can go wrong, as causes. The wording of all of them is in `Error.message`, the code with which a process
ends in `Error.exitCode`, and `Error.isAttachFailure` says which of them mean that a channel could not be attached to.

* `Error.exitCode_eq_one_iff`: only a failed encoder probe has an exit code of its own.
-/

namespace MediaChannels

/-- What the operating system answers to a call that fails. -/
inductive SystemError where
  | noSuchFile
  | inputOutput
  | noSuchDevice
  | outOfMemory
  | permissionDenied
  | notADirectory
  | isADirectory
  | invalidArgument
  | fileNameTooLong
  | other (text : String)
  deriving DecidableEq, Repr

/-- The system's own words for an error, with its number. -/
def SystemError.message : SystemError → String
  | noSuchFile => "No such file or directory (os error 2)"
  | inputOutput => "Input/output error (os error 5)"
  | noSuchDevice => "No such device or address (os error 6)"
  | outOfMemory => "Cannot allocate memory (os error 12)"
  | permissionDenied => "Permission denied (os error 13)"
  | notADirectory => "Not a directory (os error 20)"
  | isADirectory => "Is a directory (os error 21)"
  | invalidArgument => "Invalid argument (os error 22)"
  | fileNameTooLong => "File name too long (os error 36)"
  | other text => text

/-- A cause of failure. -/
inductive Error where
  /-- The system refuses to create a region. -/
  | regionNotCreated (name : String) (cause : SystemError)
  /-- The system refuses to open a region that exists. -/
  | regionNotOpened (name : String) (cause : SystemError)
  | notMapped (cause : SystemError)
  | notResized (cause : SystemError)
  /-- No region has this name. -/
  | notFound (name : String)
  /-- The segment has no channel with this index. -/
  | indexOutOfRange (index count : Nat)
  | unknownChannel (text : String)
  | invalidMagic (expected got : UInt32)
  | incompatibleVersion (expected got : UInt32)
  /-- The region is smaller than what it claims to hold. -/
  | truncated (name : String) (need got : Nat)
  /-- The header describes sizes that no segment can have. -/
  | corrupt (name : String) (reason : String)
  | invalidName (name : String)
  | nameTooLong (max got : Nat)
  /-- The payload does not fit where it should go. -/
  | payloadTooLarge (max got : Nat)
  | laneFull (kind : ControlKind)
  | malformedEvent (tag : UInt32) (value : Int64)
  /-- No encoder works. -/
  | probeFailed (reason : String)
  | setupFailed (reason : String)
  /-- The session cannot do this in its state. -/
  | wrongState (state : SessionState)
  | configuration (reason : String)
  /-- The configuration is not a document of its format. -/
  | document (reason : String)
  | system (cause : SystemError)
  deriving DecidableEq, Repr

namespace Error

/-- The magic number as it is shown. -/
def magicText (w : UInt32) : String := "0x" ++ String.ofList (Text.hexDigits 8 w.toNat)

/-- The words of an error. -/
def message : Error → String
  | regionNotCreated name cause => s!"Failed to create shared memory '{name}': {cause.message}"
  | regionNotOpened name cause => s!"Failed to open shared memory '{name}': {cause.message}"
  | notMapped cause => s!"Failed to map memory: {cause.message}"
  | notResized cause => s!"Failed to set shared memory size: {cause.message}"
  | notFound name => s!"Shared channel segment '{name}' not found"
  | indexOutOfRange index count => s!"Channel index {index} out of range (segment has {count} channels)"
  | unknownChannel text => s!"Unknown channel '{text}'"
  | invalidMagic expected got =>
    s!"Invalid segment magic number: expected {magicText expected}, got {magicText got}"
  | incompatibleVersion expected got =>
    s!"Incompatible segment version: expected {expected.toNat}, got {got.toNat}"
  | truncated name need got => s!"Segment '{name}' is truncated: need {need} bytes, mapped {got}"
  | corrupt name reason => s!"Segment '{name}' has a corrupt header: {reason}"
  | invalidName name => s!"Invalid shared memory name '{name}'"
  | nameTooLong max got => s!"Namespace too long: max {max} chars, got {got}"
  | payloadTooLarge max got => s!"Payload too large: max {max} bytes, got {got} bytes"
  | laneFull kind => s!"Control event ring is full for {kind.label}"
  | malformedEvent tag value => s!"Malformed control event: tag {tag.toNat}, value {value.toInt}"
  | probeFailed reason => s!"Encoder probe failed: {reason}"
  | setupFailed reason => s!"Initialization failed: {reason}"
  | wrongState state => s!"Session cannot do this while {state.label}"
  | configuration reason => s!"Configuration error: {reason}"
  | document reason => s!"Failed to parse configuration: {reason}"
  | system cause => s!"IO error: {cause.message}"

/-- Whether an error means that a process could not attach to its channel. -/
def isAttachFailure : Error → Bool
  | notFound _ | indexOutOfRange _ _ | unknownChannel _ | invalidMagic _ _ | incompatibleVersion _ _
  | truncated _ _ _ | corrupt _ _ | regionNotOpened _ _ => true
  | _ => false

/-- The code with which a process ends that fails with an error: one for a failed probe, else two. -/
def exitCode : Error → Nat
  | probeFailed _ => 1
  | _ => 2

theorem exitCode_eq_one_iff {e : Error} : e.exitCode = 1 ↔ ∃ reason, e = probeFailed reason := by
  cases e <;> simp [exitCode]

end Error

end MediaChannels
