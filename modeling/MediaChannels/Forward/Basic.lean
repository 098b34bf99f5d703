import MediaChannels.Channel.Basic
import MediaChannels.Mail.Office

/-!
# Forwarders

A forwarder moves packets between a mailbox and a channel until it is told to stop, by a latch of its process or of its
session. It also carries control events from the lanes of its channel to latches of the session's mailbox: of each kind
only the newest one counts.

* `isStopped_iff`: the three latches that stop a forwarder.
* `bridgeAll_nil`, `bridgeAll_cons`: bridging goes kind by kind.
-/

namespace MediaChannels

/-- What the threads of a process see of each other: the bytes of a channel's region, and the mailboxes. -/
structure Environment where
  memory : Memory
  office : Office

namespace Environment

/-- Runs a program on the bytes. -/
def access {α : Type} (env : Environment) (program : Access α) : α × Environment :=
  let (value, memory) := program.run env.memory
  (value, { env with memory })

end Environment

/-- Packets and events that a forwarder has handled. -/
structure ForwardStats where
  /-- Published on the ring, or handed to the sink. -/
  forwarded : Nat := 0
  /-- Refused by the ring. -/
  rejected : Nat := 0
  /-- Overwritten before they were reached. -/
  skipped : Nat := 0
  /-- Control events that became latches of the session. -/
  events : Nat := 0
  deriving DecidableEq, Repr

/-- A forwarder: its channel and the mailboxes of its process and its session. -/
structure Forwarder where
  channel : Channel
  process : Nat
  session : Nat

namespace Forwarder

variable (f : Forwarder)

/-- Whether the forwarder was told to stop. -/
def isStopped (office : Office) : Bool :=
  office.isRaised f.session .shutdown || office.isRaised f.process .shutdown ||
    office.isRaised f.process .broadcastShutdown

/-- Raises the latch of the session that belongs to an event. -/
def raiseEvent (office : Office) : ControlEvent → Office
  | .bitrate kbps =>
    let (number, office) := office.event f.session .number MailKey.bitrate.text
    office.raise .number number kbps
  | .framerate fps =>
    let (number, office) := office.event f.session .number MailKey.framerate.text
    office.raise .number number fps
  | .pointer visible =>
    let (number, office) := office.event f.session .flag MailKey.pointer.text
    office.raise .flag number visible
  | .idr requested =>
    let (number, office) := office.event f.session .flag MailKey.idr.text
    office.raise .flag number requested

/-- Empties the lane of a kind and raises its newest event; tells whether there was one. -/
def bridge (kind : ControlKind) (env : Environment) : Bool × Environment :=
  match env.access (f.channel.events.latest kind) with
  | (some event, env) => (true, { env with office := f.raiseEvent env.office event })
  | (none, env) => (false, env)

/-- Bridges the kinds of a list and counts those that had an event. -/
def bridgeAll : List ControlKind → Environment → Nat × Environment
  | [], env => (0, env)
  | kind :: rest, env =>
    let (raised, env) := f.bridge kind env
    let (count, env) := bridgeAll rest env
    (raised.toNat + count, env)

/-- The queue of the session that feeds the channel. -/
def queue (office : Office) : Nat × Office :=
  office.queueOf f.session .packet (MailKey.packetQueue f.channel.kind).text

theorem isStopped_iff (office : Office) :
    f.isStopped office = true ↔
      office.isRaised f.session .shutdown = true ∨ office.isRaised f.process .shutdown = true ∨
        office.isRaised f.process .broadcastShutdown = true := by
  simp [isStopped, or_assoc]

@[simp] theorem bridgeAll_nil (env : Environment) : f.bridgeAll [] env = (0, env) := rfl

theorem bridgeAll_cons (kind : ControlKind) (rest : List ControlKind) (env : Environment) :
    f.bridgeAll (kind :: rest) env =
      ((f.bridge kind env).1.toNat + (f.bridgeAll rest (f.bridge kind env).2).1,
        (f.bridgeAll rest (f.bridge kind env).2).2) := by simp only [bridgeAll]

end Forwarder

end MediaChannels
