import MediaChannels.Forward.Push
import MediaChannels.Segment
import MediaChannels.Session.Capture
import MediaChannels.Session.Crypto
import MediaChannels.Session.Lifecycle

/-!
# Sessions

A session binds a source of packets to a channel. While it runs, its capture worker fills the packet queue of its
mailbox and its forwarding worker publishes what comes out of the queue. `advance` lets both workers go on for as long
as they can; starting and joining are calls that go through the steps of `Lifecycle` one by one.

* `alloc_input`: the input channel has no session.
-/

namespace MediaChannels

/-- What a worker is busy with. -/
inductive SessionWork where
  /-- Scripted capture: whether it has filled the queue, and what happens then. -/
  | script (packets : List Packet) (begun : Bool) (ending : CaptureEnd)
  | pattern (p : TestPattern)
  | push (l : PushLoop)

/-- A session. -/
structure Session where
  settings : StreamSettings
  crypto : SessionCrypto
  handle : ChannelHandle
  backend : CaptureBackend
  process : Nat
  life : Lifecycle
  /-- The number of probes so far. -/
  probes : Nat := 0
  /-- What probes and capture have reported. -/
  log : List String := []
  /-- The work of the workers that are alive, by their thread. -/
  work : List (Nat × SessionWork) := []

namespace Session

/-- A stopped session for a channel of video or audio. -/
def alloc (settings : StreamSettings) (crypto : SessionCrypto) (handle : ChannelHandle) (backend : CaptureBackend)
    (process : Nat) (office : Office) : Except Error (Session × Office) :=
  if handle.channel.kind = .input then
    .error (.configuration "the input channel cannot host a capture session")
  else
    let (mailbox, office) := office.addMailbox
    .ok ({ settings, crypto, handle, backend, process, life := { kind := handle.channel.kind, mailbox } }, office)

variable (s : Session)

/-- The forwarder of a run. -/
def forwarder (mailbox : Nat) : Forwarder :=
  { channel := s.handle.channel, process := s.process, session := mailbox }

/-- Whether a worker is alive. -/
def isBusy : Bool := !s.work.isEmpty

/-- The line that capture reports when it begins. -/
def captureLine : String :=
  s!"capture {s.handle.channel.kind.name} {s.settings.video.width.toNat}x{s.settings.video.height.toNat}"

/-- The work that a new worker begins with. -/
def firstWork : WorkerRole → SessionWork
  | .forward => .push {}
  | .capture =>
    match s.backend with
    | .script _ packets ending => .script packets false ending
    | .testPattern => .pattern (.start s.settings)

/-- One step of a thread, and the work of the worker that it may have spawned. -/
def stepThread (t : Nat) (outcome : Except Error Unit) (office : Office) : Option (Session × Office) :=
  (s.life.step office t outcome).map fun (life, office) =>
    let spawned := (List.range' s.life.threads.size (life.threads.size - s.life.threads.size)).filterMap fun worker =>
      (life.thread worker).role.map fun role => (worker, s.firstWork role)
    ({ s with life, work := s.work ++ spawned }, office)

/-- The number of steps in which a thread gets anywhere it can. -/
def enoughSteps : Nat := 64

/-- Lets a thread that needs no decision from outside go on until it has to wait or has nothing to do. -/
def runThread (t : Nat) (office : Office) : Nat → Session → Session × Office
  | 0, s => (s, office)
  | fuel + 1, s =>
    match s.stepThread t (.ok ()) office with
    | some (s, office) => runThread t office fuel s
    | none => (s, office)

/-- Adds a thread that calls the session, and lets it go on. -/
def callNow (ops : List SessionOp) (office : Office) : Nat × Session × Office :=
  let (t, life) := s.life.call ops
  (t, runThread t office enoughSteps { s with life })

/-- Stops the session. -/
def stop (office : Office) : Session × Office := (s.callNow Lifecycle.stopOps office).2

/-- Puts packets into the queue of a mailbox. -/
def enqueue (mailbox : Nat) (packets : List Packet) (office : Office) : Office :=
  let (number, office) := office.queueOf mailbox .packet (MailKey.packetQueue s.handle.channel.kind).text
  office.setQueue .packet number ((office.queue .packet number).pushAll packets)

/-- Whether scripted capture is at its end. -/
def captureEnds (mailbox : Nat) (ending : CaptureEnd) (env : Environment) : Bool :=
  env.office.isRaised mailbox .shutdown ||
    match ending with
    | .atShutdown => false
    | .afterPackets count => count ≤ (env.access s.handle.channel.packets.writeIndex).1.toNat

/-- Lets one worker go on for as long as it can; no work is left if the worker ends. -/
def advanceWork (mailbox : Nat) (env : Environment) : SessionWork → Option SessionWork × Session × Environment
  | .script packets false ending =>
    (some (.script packets true ending), { s with log := s.log ++ [s.captureLine] },
      { env with office := s.enqueue mailbox packets env.office })
  | .script packets true ending =>
    (if s.captureEnds mailbox ending env then none else some (.script packets true ending), s, env)
  | .pattern p => (if env.office.isRaised mailbox .shutdown then none else some (.pattern p), s, env)
  | .push l =>
    let (l, env) := l.settle (s.forwarder mailbox) env
    (if l.phase = .left then none else some (.push l), s, env)

/-- Lets a worker go on; one that ends stops the session. -/
def advanceWorker (t : Nat) (work : SessionWork) (env : Environment) : Session × Environment :=
  match s.advanceWork (s.life.thread t).mailbox env work with
  | (some work, s, env) => ({ s with work := s.work.map fun (u, w) => if u = t then (u, work) else (u, w) }, env)
  | (none, s, env) =>
    let (s, office) := runThread t env.office enoughSteps { s with work := s.work.filter (·.1 != t) }
    (s, { env with office })

/-- Lets every worker go on once. -/
def advanceOnce (env : Environment) : Session × Environment :=
  s.work.foldl (fun (s, env) (t, work) => s.advanceWorker t work env) (s, env)

/-- The number of rounds after which the workers have nothing more to say to each other. -/
def enoughRounds : Nat := 4

/-- Lets the workers go on until they wait for others. -/
def advance (env : Environment) : Session × Environment :=
  (List.range enoughRounds).foldl (fun (s, env) _ => s.advanceOnce env) (s, env)

/-- Makes every test pattern of the session produce its next frame. Where `patience` sets a number of milliseconds, a
pattern that is slower produces nothing. -/
def tick (patience : Option Nat) (env : Environment) : Session × Environment :=
  if patience.all (TestPattern.interval s.settings s.handle.channel.kind ≤ ·) then
    s.work.foldl
      (fun (s, env) (t, work) =>
        match work with
        | .pattern p =>
          let (p, office) := p.capture s.settings s.handle.channel.kind (s.life.thread t).mailbox env.office
          ({ s with work := s.work.map fun (u, w) => if u = t then (u, .pattern p) else (u, w) }, { env with office })
        | _ => (s, env))
      (s, env)
  else (s, env)

/-- Looks for an encoder, as thread `t` that starts the session does, and reports the states that were seen. -/
def probe (t : Nat) (office : Office) : Option (Session × Office) :=
  let seen := s.life.state.name
  let outcome := s.backend.probe s.probes
  let s := { s with probes := s.probes + 1 }
  match outcome with
  | .works => { s with log := s.log ++ [seen] }.stepThread t (.ok ()) office
  | .fails e => { s with log := s.log ++ [seen] }.stepThread t (.error e) office
  | .stops =>
    let (s, office) := s.stop office
    let (s, office) := s.stop office
    { s with log := s.log ++ [s!"{seen},{s.life.state.name}"] }.stepThread t (.ok ()) office

/-- Whether a thread is about to look for an encoder. -/
def isProbing (t : Nat) : Bool := (s.life.thread t).todo.head? == some .probe

/-- Lets a thread that starts the session go on. -/
def runStart (t : Nat) : Nat → Session → Office → Session × Office
  | 0, s, office => (s, office)
  | fuel + 1, s, office =>
    match if s.isProbing t then s.probe t office else s.stepThread t (.ok ()) office with
    | some (s, office) => runStart t fuel s office
    | none => (s, office)

/-- Starts the session. -/
def start (office : Office) : Except Error Unit × Session × Office :=
  let (t, life) := s.life.call Lifecycle.startOps
  let (s, office) := runStart t enoughSteps { s with life } office
  ((s.life.thread t).answer, s, office)

/-- Waits for the end of the session: a thread that has to wait lets the workers go on. -/
def join (env : Environment) : Session × Environment :=
  let (t, s, office) := s.callNow Lifecycle.joinOps env.office
  (List.range enoughRounds).foldl
    (fun (s, env) _ =>
      if s.life.isAlive t then
        let (s, env) := s.advance env
        let (s, office) := runThread t env.office (enoughSteps + s.life.workers.length) s
        (s, { env with office })
      else (s, env))
    (s, { env with office })

theorem alloc_input {settings : StreamSettings} {crypto : SessionCrypto} {handle : ChannelHandle}
    {backend : CaptureBackend} {process : Nat} {office : Office} (h : handle.channel.kind = .input) :
    alloc settings crypto handle backend process office =
      .error (.configuration "the input channel cannot host a capture session") := by
  simp [alloc, h]

end Session

end MediaChannels
