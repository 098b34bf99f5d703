import MediaChannels.Command.Arguments
import MediaChannels.Config.File
import MediaChannels.Forward.Pull
import MediaChannels.Machine
import MediaChannels.Session.Basic

/-!
# Processes

A command either does its work at once and ends with an exit code, or goes on until it is interrupted: it keeps a
segment, runs a session, or follows a ring. A process is what such a command has become.

* `Command.send_of_attach_error`, `Command.report_of_attach_error`: a command that cannot attach does nothing.
-/

namespace MediaChannels

/-- What a process does until it is interrupted. -/
inductive ProcessWork where
  | keep (segment : Segment)
  | session (s : Session)
  | follow (handle : ChannelHandle) (loop : PullLoop)

/-- A process that waits to be interrupted. -/
structure Process where
  mailbox : Nat
  config : HostConfig
  work : ProcessWork

/-- What becomes of a command. -/
inductive CommandOutcome where
  | ended (code : Nat) (output : List String)
  | running (p : Process)

/-- Why a command is not even begun. -/
inductive StartFault where
  | usage
  | configuration (e : Error)
  | logLevel (level : Nat)
  deriving DecidableEq, Repr

namespace StartFault

/-- The name under which a process reports. -/
def program : String := "streamhost"

/-- The exit code of a process that is not begun. -/
def exitCode : StartFault → Nat
  | usage => 2
  | configuration e => e.exitCode
  | logLevel _ => 2

/-- The line in which a fault is reported; bad usage is answered with a help text instead. -/
def message? : StartFault → Option String
  | usage => none
  | configuration e => some s!"{program}: {e.message}"
  | logLevel level => some s!"{program}: log level must be 0..={HostConfig.maxLogLevel.toNat}, got {level}"

end StartFault

/-- The configuration of an invocation: its file, or the defaults, and what its options say instead. -/
def Invocation.configure (i : Invocation) (files : String → Except SystemError (List UInt8)) :
    Except StartFault HostConfig := do
  let config ← match i.config with
    | some path => (HostConfig.load path (files path)).mapError .configuration
    | none => .ok {}
  let config ← match i.logLevel with
    | some level =>
      if HostConfig.maxLogLevel.toNat < level then .error (.logLevel level)
      else .ok { config with minLogLevel := UInt8.ofNat level }
    | none => .ok config
  match i.command with
  | .serve name queueSize slotSize _ _ =>
    let sizes : Sizes :=
      { config.segment.sizes with
        queueSize := queueSize.getD config.segment.sizes.queueSize
        slotSize := slotSize.getD config.segment.sizes.slotSize }
    return { config with segment := { name := name.getD config.segment.name, sizes } }
  | _ => return config

namespace Process

/-- The exit code of a process that is brought down by a time that no clock reaches. -/
def abortCode : Nat := 101

/-- Seconds that the clock of a machine has counted before a process looks at it: a day. -/
def uptime : Nat := 86400

/-- A clock counts seconds in 63 bits. This is the smallest number of seconds by which a deadline cannot be set ahead of
the present time. -/
def clockLimit : Nat := 1 <<< 63 - uptime

/-- The region that a process maps. -/
def region (p : Process) : Region :=
  match p.work with
  | .keep segment => segment.region
  | .session s => s.handle.region
  | .follow handle _ => handle.region

/-- The forwarder of a process that follows a ring. -/
def forwarder (p : Process) (handle : ChannelHandle) : Forwarder :=
  { channel := handle.channel, process := p.mailbox, session := p.mailbox }

/-- Lets a process go on until it waits for others. -/
def advance (p : Process) (m : Machine) : Process × Machine :=
  match p.work with
  | .keep _ => (p, m)
  | .session s =>
    let (s, m) := m.within s.handle.region.object s.advance
    ({ p with work := .session s }, m)
  | .follow handle loop =>
    let (loop, m) := m.within handle.region.object fun env => loop.settle (p.forwarder handle) env
    ({ p with work := .follow handle loop }, m)

/-- Lets a test pattern of a process produce its next frame, if that takes no longer than `patience`. -/
def tick (patience : Option Nat) (p : Process) (m : Machine) : Process × Machine :=
  match p.work with
  | .session s =>
    let (s, m) := m.within s.handle.region.object (s.tick patience)
    ({ p with work := .session s }, m)
  | _ => (p, m)

/-- Interrupts a process and waits for its end. -/
def interrupt (p : Process) (m : Machine) : Nat × Machine :=
  let m := { m with office := m.office.shutDown p.mailbox }
  let code := if clockLimit ≤ p.config.shutdownGrace.toNat then abortCode else 0
  match p.work with
  | .keep segment => (code, { m with shared := m.shared.release segment.region })
  | .session s =>
    let (_, m) := m.within s.handle.region.object fun env =>
      let (s, office) := s.stop env.office
      s.join { env with office }
    (code, m)
  | .follow _ _ => (0, (p.advance m).2)

end Process

namespace Command

/-- Sends a control event to a channel. -/
def send (s : SharedMemory) (segment : String) (channel : ChannelKind) (event : ControlEvent) :
    Except Error Unit × SharedMemory :=
  match Segment.attach s segment channel.index with
  | (.error e, s) => (.error e, s)
  | (.ok handle, s) => s.access handle.region.object (handle.channel.events.push event)

/-- The lines that report the channels of a list, up to the first that cannot be attached to. -/
def report (segment : String) : List ChannelKind → SharedMemory → List String × Option Error × SharedMemory
  | [], s => ([], none, s)
  | kind :: rest, s =>
    match Segment.attach s segment kind.index with
    | (.error e, s) => ([], some e, s)
    | (.ok handle, s) =>
      let (seen, s) := s.access handle.region.object handle.channel.status
      let (lines, fault, s) := report segment rest s
      (seen.text :: lines, fault, s)

/-- Creates the segment of a configuration and publishes a display selector. -/
def beginServe (config : HostConfig) (display : Option String) (s : SharedMemory) :
    Except Error Segment × SharedMemory :=
  match Segment.create s config.segment.name config.segment.sizes with
  | (.error e, s) => (.error e, s)
  | (.ok segment, s) =>
    match display with
    | none => (.ok segment, s)
    | some display =>
      match s.access segment.region.object ((segment.channel .video0).channel.setDisplay display) with
      | (.ok (), s) => (.ok segment, s)
      | (.error e, s) => (.error e, s.release segment.region)

/-- A session with a test pattern that was just started. -/
def beginSession (config : HostConfig) (handle : ChannelHandle) (mailbox : Nat) (office : Office) :
    Except Error Session × Office :=
  match Session.alloc config.stream { key := [], iv := [] } handle .testPattern mailbox office with
  | .error e => (.error e, office)
  | .ok (s, office) =>
    match s.start office with
    | (.ok (), s, office) => (.ok s, office)
    | (.error e, _, office) => (.error e, office)

/-- The outcome of a command that fails. -/
def failed (e : Error) (output : List String) : CommandOutcome := .ended e.exitCode output

/-- Runs a command. -/
def run (c : Command) (config : HostConfig) (m : Machine) : CommandOutcome × Machine :=
  let (mailbox, office) := m.office.addMailbox
  let m := { m with office }
  let process (work : ProcessWork) : CommandOutcome := .running { mailbox, config, work }
  match c with
  | .signal segment channel event =>
    match send m.shared segment channel event with
    | (.error e, shared) => (failed e [], { m with shared })
    | (.ok (), shared) => (.ended 0 [], { m with shared })
  | .status segment =>
    match report segment ChannelKind.all m.shared with
    | (lines, some e, shared) => (failed e lines, { m with shared })
    | (lines, none, shared) => (.ended 0 lines, { m with shared })
  | .serve _ _ _ display statusSecs =>
    match beginServe config display m.shared with
    | (.error e, shared) => (failed e [], { m with shared })
    | (.ok segment, shared) =>
      if Process.clockLimit ≤ statusSecs then
        (.ended Process.abortCode [], { m with shared := shared.release segment.region })
      else (process (.keep segment), { m with shared })
  | .forward segment channel =>
    match Segment.attach m.shared segment channel.index with
    | (.error e, shared) => (failed e [], { m with shared })
    | (.ok handle, shared) =>
      if channel = .input then (process (.follow handle {}), { m with shared })
      else
        match beginSession config handle mailbox m.office with
        | (.error e, office) => (failed e [], { shared, office })
        | (.ok s, office) => (process (.session s), { shared, office })
  | .drain segment channel =>
    match Segment.attach m.shared segment channel.index with
    | (.error e, shared) => (failed e [], { m with shared })
    | (.ok handle, shared) => (process (.follow handle {}), { m with shared })

/-- Begins a command line. -/
def start (args : List String) (files : String → Except SystemError (List UInt8)) (m : Machine) :
    Except StartFault (CommandOutcome × Machine) :=
  match CommandLine.read args with
  | none => .error .usage
  | some i => (i.configure files).map fun config => i.command.run config m

theorem send_of_attach_error {s t : SharedMemory} {segment : String} {channel : ChannelKind} {e : Error}
    (h : Segment.attach s segment channel.index = (.error e, t)) (event : ControlEvent) :
    send s segment channel event = (.error e, t) := by
  simp [send, h]

theorem report_of_attach_error {s t : SharedMemory} {segment : String} {kind : ChannelKind} {rest : List ChannelKind}
    {e : Error} (h : Segment.attach s segment kind.index = (.error e, t)) :
    report segment (kind :: rest) s = ([], some e, t) := by
  simp [report, h]

end Command

end MediaChannels
