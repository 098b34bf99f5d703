import MediaChannels.Workbench.Mail
import MediaChannels.Workbench.Structures

/-!
# What runs on a bench

Forwarders, sessions and processes. Forwarders run to their end while something stops them; sessions and processes go on
in the background, and `settle` lets all of them go on until they wait for somebody else. Time passes only where
somebody waits: then `tick` makes the test patterns produce their next frames.

* `signal_process`: how the shutdown of a process is raised.
-/

namespace MediaChannels

/-- The three ways to tell a forwarder to stop. -/
inductive StopSignal where
  | process
  | broadcast
  | session
  deriving DecidableEq, Repr

/-- Raises a stop signal of a forwarder. -/
def StopSignal.raise (signal : StopSignal) (f : Forwarder) (office : Office) : Office :=
  match signal with
  | process => office.shutDown f.process
  | session => office.shutDown f.session
  | broadcast =>
    let (number, office) := office.event f.process .flag MailKey.broadcastShutdown.text
    office.raise .flag number true

/-- What stops a push loop. -/
inductive PushStop where
  /-- Something that has happened before. -/
  | before
  /-- The queue is closed once it is empty. -/
  | closing
  /-- A signal is raised once the queue is empty. -/
  | signal (s : StopSignal)
  deriving DecidableEq, Repr

/-- What happens while a pull loop runs: packets that are pushed after the first delivery, the second and so on, and the
number of deliveries after which it is told to stop. -/
structure PullScene where
  stopAfter : Nat
  signal : StopSignal
  pushes : Nat → List Packet
  /-- The number of packets that are pushed. -/
  pushed : Nat

/-- What is seen of a forwarder: its counters, whether the channel was active meanwhile and is afterwards, and the
packets that a sink has got. -/
structure ForwardReport where
  stats : ForwardStats
  activeDuring : Option Bool
  activeAfter : Bool
  delivered : List IndexedPacket := []
  deriving DecidableEq, Repr

namespace Forwarder

variable (f : Forwarder)

/-- Whether the channel is active. -/
def isActive (env : Environment) : Bool := (env.access f.channel.isActive).1

/-- Closes the queue that feeds the channel. -/
def closeQueue (env : Environment) : Environment :=
  { env with office := env.office.closePackets f.session f.channel.kind }

/-- Runs a push loop to its end. -/
def push (stop : PushStop) (env : Environment) : ForwardReport × Environment :=
  let (l, env) := PushLoop.settle f {} env
  let active := match stop with
    | .signal _ => some (f.isActive env)
    | _ => none
  let env := match stop with
    | .before => env
    | .closing => f.closeQueue env
    | .signal s => { env with office := s.raise f env.office }
  let (l, env) := PushLoop.settle f l env
  ({ stats := l.stats, activeDuring := active, activeAfter := f.isActive env }, env)

/-- What the sink does after a delivery; it keeps whether the channel was active at every one. -/
def actAfterDelivery (scene : PullScene) (l : PullLoop) (active : Bool) (env : Environment) : Bool × Environment :=
  let count := l.delivered.length
  let active := active && f.isActive env
  let env := (env.access (f.channel.packets.pushAll (scene.pushes count))).2
  (active, if count = scene.stopAfter then { env with office := scene.signal.raise f env.office } else env)

/-- Lets a pull loop go on until its next pause. -/
def pullOn (scene : PullScene) (l : PullLoop) (active : Bool) (env : Environment) : (PullLoop × Bool) × Environment :=
  let (l, active, env) := PullLoop.settleWith f (f.actAfterDelivery scene) scene.pushed l active env
  ((l, active), env)

/-- Tells a pull loop to stop, and runs it to its end. -/
def endPull (scene : PullScene) (l : PullLoop) (active : Bool) (env : Environment) : ForwardReport × Environment :=
  let env := { env with office := scene.signal.raise f env.office }
  let ((l, active), env) := f.pullOn scene l active env
  ({ stats := l.stats, activeDuring := some active, activeAfter := f.isActive env, delivered := l.delivered }, env)

end Forwarder

theorem StopSignal.signal_process (f : Forwarder) (office : Office) :
    StopSignal.process.raise f office = office.shutDown f.process := rfl

namespace Workbench

/-- Changes a session. -/
def onSession {α : Type} (number : Nat) (work : Session → Environment → α × Session × Environment) :
    Bench (Option α) := do
  match (← get).sessions[number]? with
  | none => return none
  | some s =>
    let (value, s) ← onMachine fun m =>
      m.within s.handle.region.object fun env =>
        let (value, s, env) := work s env
        ((value, s), env)
    modify fun w => { w with sessions := w.sessions.setIfInBounds number s }
    return some value

/-- Changes a process that runs. -/
def onProcess (number : Nat) (work : Process → Machine → Process × Machine) : Bench Unit := do
  match (← get).processes[number]? with
  | some (.running p) =>
    let p ← onMachine (work p)
    modify fun w => { w with processes := w.processes.setIfInBounds number (.running p) }
  | _ => pure ()

/-- Lets every session and every process go on once. -/
def advanceAll : Bench Unit := do
  let w ← get
  for number in List.range w.sessions.size do
    let _ ← onSession number fun s env => ((), s.advance env)
  for number in List.range w.processes.size do
    onProcess number Process.advance

/-- The number of rounds after which sessions and processes have nothing more to say to each other. -/
def enoughRounds : Nat := 3

/-- Lets sessions and processes go on until they wait for somebody else, and releases what they leave. -/
def settle : Bench Unit := do
  let w ← get
  unless w.sessions.isEmpty && w.processes.isEmpty do
    for _ in List.range enoughRounds do
      advanceAll
    modify collect

/-- Lets every test pattern produce a frame that does so within `patience`. -/
def tick (patience : Option Nat) : Bench Unit := do
  for number in List.range (← get).sessions.size do
    let _ ← onSession number fun s env => ((), s.tick patience env)
  for number in List.range (← get).processes.size do
    onProcess number (Process.tick patience)

/-- Waits until something holds, for up to `rounds` frames of the test patterns. -/
def await (holds : Bench Bool) : Nat → Bench Bool
  | 0 => do
    settle
    holds
  | rounds + 1 => do
    settle
    if ← holds then return true
    tick none
    await holds rounds

/-- The number of frames for which somebody waits for what the test patterns bring about. -/
def enoughFrames : Nat := 64

/-- Waits until a channel has this many packets. -/
def awaitWritten (id : String) (count : Nat) : Bench Bool :=
  await (do return (← onRing id (·.writeIndex)).any (count ≤ ·.toNat)) (count + 1)

/-- Waits until a channel is active or idle. -/
def awaitActive (id : String) (active : Bool) : Bench Bool :=
  await (do return (← onChannel id (·.isActive)) == some active) enoughFrames

/-- Waits until a channel can be attached to, and has a display selector if one is given. -/
def awaitAttach (name : String) (index : Nat) (display : Option String) : Bench Bool :=
  await (do
    let shared := (← get).machine.shared
    match Segment.attach shared name index with
    | (.ok handle, shared) =>
      let (found, _) := shared.access handle.region.object handle.channel.display
      return display.isNone || found == display
    | (.error _, _) => return false) enoughFrames

/-- Takes the next packet of a client, for which it waits as many milliseconds if there is none. -/
def awaitPacket (id : String) (target : PopTarget) (milliseconds : Nat) : Bench (Option PopResult) := do
  let found ← onClient id (Client.pop · target)
  if found.any (·.length.isSome) then return found
  tick (some milliseconds)
  settle
  onClient id (Client.pop · target)

/-- The forwarder between a channel and two mailboxes. -/
def forwarder? (channel process session : String) : Bench (Option (Nat × Forwarder)) := do
  let w ← get
  match w.find? channel, w.find? process, w.find? session with
  | some (.channel h), some (.mailbox process), some (.mailbox session) =>
    return some (h.region.object, { channel := h.channel, process, session })
  | _, _, _ => return none

/-- Runs a push loop to its end. -/
def push (channel process session : String) (stop : PushStop) : Bench (Option ForwardReport) := do
  match ← forwarder? channel process session with
  | none => return none
  | some (object, f) => return some (← onMachine (·.within object (f.push stop)))

/-- Lets a pull loop go on until it has got the packets that its scene asks for, for up to `rounds` frames of the test
patterns. -/
def pullRounds (object : Nat) (f : Forwarder) (scene : PullScene) :
    Nat → PullLoop → Bool → Bench (PullLoop × Bool)
  | rounds, l, active => do
    let (l, active) ← onMachine (·.within object (f.pullOn scene l active))
    match rounds with
    | 0 => return (l, active)
    | rounds + 1 =>
      if l.phase = .left ∨ scene.stopAfter ≤ l.delivered.length then return (l, active)
      tick none
      settle
      pullRounds object f scene rounds l active

/-- Runs a pull loop to its end. It is told to stop when its scene says so, and in any case once it gets no further. -/
def pull (channel process session : String) (scene : PullScene) : Bench (Option ForwardReport) := do
  match ← forwarder? channel process session with
  | none => return none
  | some (object, f) =>
    let (l, active) ← pullRounds object f scene scene.stopAfter {} true
    return some (← onMachine (·.within object (f.endPull scene l active)))

/-- Makes a session on a channel. -/
def makeSession (id channel : String) (process : Option String) (settings : StreamSettings) (crypto : SessionCrypto)
    (backend : CaptureBackend) : Bench (Option (Except Error Session)) := do
  match (← get).find? channel with
  | some (.channel h) =>
    let process ← mailboxOrNew process
    let made ← onOffice fun o =>
      match Session.alloc settings crypto h backend process o with
      | .ok (s, o) => (Except.ok s, o)
      | .error e => (Except.error e, o)
    match made with
    | .error e => return some (.error e)
    | .ok s =>
      let number := (← get).sessions.size
      modify fun w => { w with sessions := w.sessions.push s }
      hold id (.session number)
      return some (.ok s)
  | _ => return none

/-- The number of the session under a name. -/
def session? (id : String) : Bench (Option Nat) := do
  match (← get).find? id with
  | some (.session number) => return some number
  | _ => return none

/-- Lets the session under a name do something. -/
def withSession {α : Type} (id : String) (work : Session → Environment → α × Session × Environment) :
    Bench (Option α) := do
  match ← session? id with
  | some number => onSession number work
  | none => return none

/-- Starts a session. -/
def startSession (id : String) : Bench (Option (Except Error Unit)) :=
  withSession id fun s env =>
    let (answer, s, office) := s.start env.office
    (answer, s, { env with office })

/-- Stops a session. -/
def stopSession (id : String) : Bench (Option Unit) :=
  withSession id fun s env =>
    let (s, office) := s.stop env.office
    ((), s, { env with office })

/-- Something about a session. -/
def askSession {α : Type} (id : String) (question : Session → α) : Bench (Option α) :=
  withSession id fun s env => (question s, s, env)

/-- Waits for the end of a session. -/
def joinSession (id : String) : Bench (Option Unit) := do
  let _ ← await (do return (← askSession id (·.isBusy)) != some true) enoughFrames
  withSession id fun s env => ((), s.join env)

/-- Keeps the present mailbox of a session. -/
def keepSessionMailbox (id session : String) : Bench Unit := do
  if let some number ← askSession session (·.life.mailbox) then hold id (.mailbox number)

/-- Runs a command line. One that goes on is interrupted at once. -/
def runCommand (args : List String) (files : String → Except SystemError (List UInt8)) :
    Bench (Except StartFault (Nat × List String)) := do
  let m := (← get).machine
  match Command.start args files m with
  | .error fault => return .error fault
  | .ok (.ended code output, machine) =>
    modify fun w => { w with machine }
    return .ok (code, output)
  | .ok (.running p, machine) =>
    let (code, machine) := p.interrupt machine
    modify fun w => { w with machine }
    return .ok (code, [])

/-- Begins a command line in the background. -/
def spawnCommand (id : String) (args : List String) (files : String → Except SystemError (List UInt8)) :
    Bench Unit := do
  let w ← get
  let (entry, machine) := match Command.start args files w.machine with
    | .error fault => (ProcessEntry.ended fault.exitCode, w.machine)
    | .ok (.ended code _, machine) => (.ended code, machine)
    | .ok (.running p, machine) => (.running p, machine)
  set { w with machine, processes := w.processes.push entry }
  hold id (.process w.processes.size)

/-- Interrupts a process and gives its exit code. -/
def interruptCommand (id : String) : Bench (Option Nat) := do
  match (← get).find? id with
  | some (.process number) =>
    match (← get).processes[number]? with
    | some (.running p) =>
      let code ← onMachine p.interrupt
      modify fun w => { w with processes := w.processes.setIfInBounds number (.ended code) }
      return some code
    | some (.ended code) => return some code
    | none => return none
  | _ => return none

end Workbench

end MediaChannels
