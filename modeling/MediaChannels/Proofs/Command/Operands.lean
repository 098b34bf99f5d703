import MediaChannels.Command.Process

/-!
# Command lines without options

An argument that does not begin with a hyphen is never taken for an option, so that a command line of such arguments is
a command with its operands, or bad usage. Here is what it comes to if an event is to be sent.

* `CommandLine.read_of_plain`: what such a command line is read as.
* `SignalLine.run`: the exit code of one that is to send an event, and what it leaves.
* `run_of_unread`, `run_of_read`: if a text cannot be read, nothing happens; otherwise the event is sent.
-/

namespace MediaChannels

namespace CommandLine

/-- Nobody takes an argument for an option that does not begin with a hyphen. -/
def Plain (arg : String) : Prop := arg.toList.head? ≠ some '-'

instance (arg : String) : Decidable (Plain arg) := inferInstanceAs (Decidable (_ ≠ _))

variable {options : List OptionName} {found : Scan} {arg name : String} {args rest : List String}

theorem classify_of_plain (h : Plain arg) : classify options arg = .operand arg := by
  unfold classify
  split
  · next hdash => exact absurd (by rw [hdash]; rfl) h
  · next hdash => exact absurd (by rw [hdash]; rfl) h
  · next hdash => exact absurd (by rw [hdash]; rfl) h
  · rfl

/-- Reading ends in front of an operand. -/
theorem scan_leading_of_plain (h : Plain arg) : scan options true found (arg :: rest) = some (found, arg :: rest) := by
  simp only [scan, classify_of_plain h, if_true]

/-- Arguments that are no options are operands. -/
theorem scan_of_plain (h : ∀ arg ∈ args, Plain arg) :
    scan options false found args = some ({ found with operands := found.operands ++ args }, []) := by
  induction args generalizing found with
  | nil => rw [scan, List.append_nil]
  | cons arg args ih =>
    have hrest : ∀ arg ∈ args, Plain arg := fun arg hmem => h arg (List.mem_cons_of_mem _ hmem)
    rw [scan, classify_of_plain (h arg List.mem_cons_self)]
    simp only [Bool.false_eq_true, if_false, ih hrest, List.append_assoc, List.singleton_append]

theorem channel?_eq_some_iff {kind : ChannelKind} : channel? arg = some kind ↔ ChannelKind.parse arg = .ok kind := by
  rw [channel?]
  cases ChannelKind.parse arg <;> simp [Except.toOption]

theorem event?_eq_some_iff {event : ControlEvent} : event? arg = some event ↔ ControlEvent.parse arg = .ok event := by
  rw [event?]
  cases ControlEvent.parse arg <;> simp [Except.toOption]

/-- **Without options, a command line is a command, if it has the right operands.** -/
theorem read_of_plain (hname : Plain name) (h : ∀ arg ∈ args, Plain arg) :
    read (name :: args) = (command? name { operands := args }).map fun command =>
      { config := none, logLevel := none, command } := by
  have hvalue {α : Type} (long : String) (f : String → Option α) : optionValue [] long f = some none := rfl
  simp only [read, scan_leading_of_plain hname, scan_of_plain h, hvalue, Option.bind_eq_bind, Option.bind_some,
    List.nil_append]
  cases command? name { operands := args } <;> rfl

end CommandLine

/-- A command line that asks for an event to be sent: what stands behind the name of the command. -/
structure SignalLine where
  segment : String
  channel : String
  event : String

namespace SignalLine

variable {line : SignalLine} {files : String → Except SystemError (List UInt8)} {m : Machine} {kind : ChannelKind}
  {event : ControlEvent}

/-- What stands behind the name of the program. -/
def args (line : SignalLine) : List String := ["signal", line.segment, line.channel, line.event]

/-- None of the operands can be taken for an option. -/
def Plain (line : SignalLine) : Prop :=
  CommandLine.Plain line.segment ∧ CommandLine.Plain line.channel ∧ CommandLine.Plain line.event

instance (line : SignalLine) : Decidable line.Plain := inferInstanceAs (Decidable (_ ∧ _ ∧ _))

/-- Runs a command line: the code with which the process ends, if it does, and what it leaves. -/
def run (files : String → Except SystemError (List UInt8)) (line : SignalLine) (m : Machine) : Option Nat × Machine :=
  match Command.start line.args files m with
  | .error fault => (some fault.exitCode, m)
  | .ok (.ended code _, m) => (some code, m)
  | .ok (.running _, m) => (none, m)

theorem read_args (h : line.Plain) :
    CommandLine.read line.args =
      (do
        let kind ← CommandLine.channel? line.channel
        let event ← CommandLine.event? line.event
        return { config := none, logLevel := none, command := .signal line.segment kind event }) := by
  have hargs : ∀ arg ∈ [line.segment, line.channel, line.event], CommandLine.Plain arg := by
    obtain ⟨hsegment, hchannel, hevent⟩ := h
    simp only [List.forall_mem_cons]
    exact ⟨hsegment, hchannel, hevent, List.forall_mem_nil _⟩
  rw [args, CommandLine.read_of_plain (by decide) hargs]
  simp only [CommandLine.command?]
  cases CommandLine.channel? line.channel with
  | none => rfl
  | some kind =>
    cases CommandLine.event? line.event with
    | none => rfl
    | some event => rfl

/-- What names no channel or no event is bad usage. -/
theorem run_of_unread (h : line.Plain)
    (hnone : CommandLine.channel? line.channel = none ∨ CommandLine.event? line.event = none) :
    line.run files m = (some 2, m) := by
  have hread : CommandLine.read line.args = none := by
    rw [read_args h]
    rcases hnone with hnone | hnone
    · rw [hnone]
      rfl
    · rw [hnone]
      cases CommandLine.channel? line.channel <;> rfl
  rw [run, Command.start, hread]
  rfl

/-- **Otherwise the event is sent**, and the code says whether that has failed. -/
theorem run_of_read (h : line.Plain) (hkind : CommandLine.channel? line.channel = some kind)
    (hevent : CommandLine.event? line.event = some event) :
    line.run files m = (match (Command.send m.shared line.segment kind event).1 with
      | .ok () => some 0
      | .error e => some e.exitCode,
      { shared := (Command.send m.shared line.segment kind event).2, office := m.office.addMailbox.2 }) := by
  have hread : CommandLine.read line.args =
      some { config := none, logLevel := none, command := .signal line.segment kind event } := by
    rw [read_args h, hkind, hevent]
    rfl
  rw [run, Command.start, hread]
  rcases hsend : Command.send m.shared line.segment kind event with ⟨e | ⟨⟩, shared⟩
  · simp only [Invocation.configure, Except.map, bind, Except.bind, pure, Except.pure, Command.run, hsend,
      Command.failed]
  · simp only [Invocation.configure, Except.map, bind, Except.bind, pure, Except.pure, Command.run, hsend]

end SignalLine

end MediaChannels
