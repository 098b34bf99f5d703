import MediaChannels.Forward.Basic

/-!
# Pushing

The loop on the producing side takes packets out of the session's queue and publishes them on the ring of its channel.
Before it waits for a packet it bridges control events. It ends when it is told to stop, or when its queue is closed,
and the channel is active from its first step to its last.

The loop is given step by step, with everything that it remembers between two steps in its phase, so that other threads
can act in between. `settle` runs it for as long as nobody else has to do something.

* `step_left`: a loop that has ended stays as it is.
* `step_hold_of_stopped`: a packet in hand is dropped if the loop is told to stop.
-/

namespace MediaChannels

/-- What a push loop does next. -/
inductive PushPhase where
  | enter
  /-- Look whether to stop. -/
  | check
  /-- Bridge the events of these kinds. -/
  | bridge (kinds : List ControlKind)
  /-- Wait for the first packet of a round. -/
  | take
  /-- No packet came: look whether the queue is closed. -/
  | idle
  /-- Look whether to stop, with a packet in hand. -/
  | hold (packet : Packet)
  | publish (packet : Packet)
  /-- Take one more packet, if there is one. -/
  | more
  | leave
  | left
  deriving DecidableEq, Repr

/-- A push loop. -/
structure PushLoop where
  phase : PushPhase := .enter
  stats : ForwardStats := {}
  deriving DecidableEq, Repr

namespace PushLoop

/-- Takes the oldest packet of the session's queue. -/
def pop (f : Forwarder) (env : Environment) : Option Packet × Environment :=
  let (number, office) := f.queue env.office
  let (packet, queue) := (office.queue .packet number).tryPop
  (packet, { env with office := office.setQueue .packet number queue })

/-- One step. -/
def step (f : Forwarder) (l : PushLoop) (env : Environment) : PushLoop × Environment :=
  match l.phase with
  | .enter => ({ l with phase := .check }, (env.access (f.channel.setActive true)).2)
  | .check => ({ l with phase := if f.isStopped env.office then .leave else .bridge ControlKind.all }, env)
  | .bridge [] => ({ l with phase := .take }, env)
  | .bridge (kind :: rest) =>
    let (raised, env) := f.bridge kind env
    ({ phase := .bridge rest, stats := { l.stats with events := l.stats.events + raised.toNat } }, env)
  | .take =>
    match pop f env with
    | (some packet, env) => ({ l with phase := .hold packet }, env)
    | (none, env) => ({ l with phase := .idle }, env)
  | .idle =>
    let (number, office) := f.queue env.office
    ({ l with phase := if (office.queue .packet number).closed then .leave else .check }, { env with office })
  | .hold packet => ({ l with phase := if f.isStopped env.office then .check else .publish packet }, env)
  | .publish packet =>
    match env.access (f.channel.packets.push packet) with
    | (.ok _, env) => ({ phase := .more, stats := { l.stats with forwarded := l.stats.forwarded + 1 } }, env)
    | (.error _, env) => ({ phase := .more, stats := { l.stats with rejected := l.stats.rejected + 1 } }, env)
  | .more =>
    match pop f env with
    | (some packet, env) => ({ l with phase := .hold packet }, env)
    | (none, env) => ({ l with phase := .check }, env)
  | .leave => ({ l with phase := .left }, (env.access (f.channel.setActive false)).2)
  | .left => (l, env)

/-- Whether the loop waits for something that others do, or has ended. -/
def isPaused (f : Forwarder) (l : PushLoop) (env : Environment) : Bool :=
  match l.phase with
  | .take =>
    let (number, office) := f.queue env.office
    (office.queue .packet number).wouldBlock
  | .left => true
  | _ => false

/-- Runs the loop until it is paused, for at most `fuel` steps. -/
def run (f : Forwarder) : Nat → PushLoop → Environment → PushLoop × Environment
  | 0, l, env => (l, env)
  | fuel + 1, l, env =>
    if isPaused f l env then (l, env)
    else
      let (l, env) := step f l env
      run f fuel l env

/-- Steps that a round takes at most when `pending` packets are queued. -/
def roundSteps (pending : Nat) : Nat := 3 * pending + 16

/-- Ends a pause, as a time-out does, and runs the loop until the next one. -/
def settle (f : Forwarder) (l : PushLoop) (env : Environment) : PushLoop × Environment :=
  let (number, office) := f.queue env.office
  let pending := (office.queue .packet number).length
  let (l, env) := step f l { env with office }
  run f (roundSteps pending) l env

theorem step_left (f : Forwarder) (stats : ForwardStats) (env : Environment) :
    step f { phase := .left, stats } env = ({ phase := .left, stats }, env) := rfl

theorem step_hold_of_stopped {f : Forwarder} {env : Environment} (h : f.isStopped env.office = true) (packet : Packet)
    (stats : ForwardStats) : step f { phase := .hold packet, stats } env = ({ phase := .check, stats }, env) := by
  simp [step, h]

end PushLoop

end MediaChannels
