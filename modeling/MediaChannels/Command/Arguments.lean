import MediaChannels.Channel.Kind
import MediaChannels.Config.Settings
import MediaChannels.Control.Reading

/-!
# Command lines

A command line has options for every command, the name of a command, and the options and operands of that command. Every
option takes a value, in the next argument or in the same one. The options for every command may also stand behind its
name, where they count more. After `--` everything is an operand.

* `read_nil`: a command has to be named.
* `scan_escape`: what follows `--` is not looked at.
-/

namespace MediaChannels

/-- What a user wants. -/
inductive Command where
  /-- Create a segment and keep it until interrupted. -/
  | serve (name : Option String) (queueSize slotSize : Option Nat) (display : Option String) (statusSecs : Nat)
  /-- Run a session on a channel, or pass input through. -/
  | forward (segment : String) (channel : ChannelKind)
  /-- Read every packet of a channel. -/
  | drain (segment : String) (channel : ChannelKind)
  /-- Send a control event. -/
  | signal (segment : String) (channel : ChannelKind) (event : ControlEvent)
  /-- Print the state of every channel. -/
  | status (segment : String)
  deriving DecidableEq, Repr

/-- A command with the options that every command has. -/
structure Invocation where
  config : Option String
  logLevel : Option Nat
  command : Command
  deriving DecidableEq, Repr

namespace CommandLine

/-- An option: its long name and the letter that stands for it. -/
structure OptionName where
  long : String
  letter : Option Char := none
  deriving DecidableEq, Repr

/-- The options that every command has. -/
def sharedOptions : List OptionName := [⟨"config", some 'c'⟩, ⟨"log-level", some 'l'⟩]

/-- The options of `serve`. -/
def serveOptions : List OptionName :=
  [⟨"name", some 'n'⟩, ⟨"queue-size", none⟩, ⟨"slot-size", none⟩, ⟨"display", none⟩, ⟨"status-secs", none⟩]

/-- What an argument is. -/
inductive Argument where
  /-- An option, with its value if the same argument holds it. -/
  | option (long : String) (value : Option String)
  | operand (s : String)
  /-- The end of the options. -/
  | escape
  | unknown
  deriving DecidableEq, Repr

/-- The option that a long name with its value, if it has one, gives. -/
def longArgument (options : List OptionName) (s : List Char) : Argument :=
  let name := s.takeWhile (· != '=')
  match options.find? (·.long.toList == name) with
  | none => .unknown
  | some o => .option o.long (if s.contains '=' then some (String.ofList (s.drop (name.length + 1))) else none)

/-- The option that a letter with its value, if it has one, gives. -/
def shortArgument (options : List OptionName) (letter : Char) (s : List Char) : Argument :=
  match options.find? (·.letter == some letter) with
  | none => .unknown
  | some o =>
    match s with
    | [] => .option o.long none
    | '=' :: r => .option o.long (some (String.ofList r))
    | _ => .option o.long (some (String.ofList s))

/-- What an argument is where these options are known. -/
def classify (options : List OptionName) (arg : String) : Argument :=
  match arg.toList with
  | ['-', '-'] => .escape
  | '-' :: '-' :: name => longArgument options name
  | '-' :: letter :: r => shortArgument options letter r
  | _ => .operand arg

/-- Whether an argument can be the value of the option before it. -/
def isValue (arg : String) : Bool := arg == "-" || arg.toList.head? != some '-'

/-- Options with their values. -/
abbrev Values := List (String × String)

/-- What a part of a command line holds: options with their values, and operands. -/
structure Scan where
  values : Values := []
  operands : List String := []
  deriving DecidableEq, Repr

/-- Adds an option, which may be given once. -/
def Scan.addOption (scan : Scan) (long value : String) : Option Scan :=
  if (scan.values.lookup long).isSome then none else some { scan with values := scan.values ++ [(long, value)] }

/-- Reads arguments; `none` for an option that is unknown, is given twice or has no value. With `leading`, reading ends
in front of the first operand. The arguments that are left are given too. -/
def scan (options : List OptionName) (leading : Bool) : Scan → List String → Option (Scan × List String)
  | found, [] => some (found, [])
  | found, arg :: rest =>
    match classify options arg with
    | .unknown => none
    | .escape => if leading then none else some ({ found with operands := found.operands ++ rest }, [])
    | .operand s =>
      if leading then some (found, s :: rest)
      else scan options leading { found with operands := found.operands ++ [s] } rest
    | .option long (some value) =>
      match found.addOption long value with
      | some found => scan options leading found rest
      | none => none
    | .option long none =>
      match rest with
      | [] => none
      | value :: rest =>
        if isValue value then
          match found.addOption long value with
          | some found => scan options leading found rest
          | none => none
        else none

/-- The value of an option, read as something; outer `none` if it cannot be read. -/
def optionValue {α : Type} (values : Values) (long : String) (read : String → Option α) : Option (Option α) :=
  match values.lookup long with
  | none => some none
  | some s => (read s).map some

/-- A number of 64 bits. -/
def number? (s : String) : Option Nat := Text.unsigned? (1 <<< 64) s.toList

/-- The channel that a text selects. -/
def channel? (s : String) : Option ChannelKind := (ChannelKind.parse s).toOption

/-- The event that a text names. -/
def event? (s : String) : Option ControlEvent := (ControlEvent.parse s).toOption

/-- Seconds between two reports of `serve`, if nothing else is said. -/
def defaultStatusSecs : Nat := 5

/-- The command with a name, its options and its operands. -/
def command? (name : String) (found : Scan) : Option Command :=
  match name, found.operands with
  | "serve", [] => do
    let name ← optionValue found.values "name" some
    let queueSize ← optionValue found.values "queue-size" number?
    let slotSize ← optionValue found.values "slot-size" number?
    let display ← optionValue found.values "display" some
    let statusSecs ← optionValue found.values "status-secs" number?
    return .serve name queueSize slotSize display (statusSecs.getD defaultStatusSecs)
  | "forward", [segment, channel] => (channel? channel).map (.forward segment)
  | "drain", [segment, channel] => (channel? channel).map (.drain segment)
  | "signal", [segment, channel, event] => do
    let channel ← channel? channel
    let event ← event? event
    return .signal segment channel event
  | "status", [segment] => some (.status segment)
  | _, _ => none

/-- The options of a command. -/
def commandOptions (name : String) : List OptionName := if name = "serve" then serveOptions else []

/-- A path, which cannot be empty. -/
def path? (s : String) : Option String := if s = "" then none else some s

/-- A log level: any number of eight bits, where zero may have either sign. -/
def level? (s : String) : Option Nat :=
  (Text.signed? (1 <<< 63) s.toList).bind fun n => if 0 ≤ n ∧ n < 256 then some n.toNat else none

/-- The invocation that arguments are, if they are one. -/
def read (args : List String) : Option Invocation := do
  let (before, rest) ← scan sharedOptions true {} args
  match rest with
  | [] => none
  | name :: rest =>
    let (found, _) ← scan (sharedOptions ++ commandOptions name) false {} rest
    let outerConfig ← optionValue before.values "config" path?
    let innerConfig ← optionValue found.values "config" path?
    let outerLevel ← optionValue before.values "log-level" level?
    let innerLevel ← optionValue found.values "log-level" level?
    let command ← command? name found
    return { config := innerConfig <|> outerConfig, logLevel := innerLevel <|> outerLevel, command }

theorem read_nil : read [] = none := rfl

theorem scan_escape (options : List OptionName) (found : Scan) (rest : List String) :
    scan options false found ("--" :: rest) = some ({ found with operands := found.operands ++ rest }, []) := by
  simp [scan, classify]

end CommandLine

end MediaChannels
