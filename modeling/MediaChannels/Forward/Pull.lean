import MediaChannels.Forward.Basic

/-!
# Pulling

The loop on the consuming side follows the ring of its channel with a cursor of its own and hands every packet to a
sink. It never writes to the ring. It ends when it is told to stop, at the latest after the packet in hand, and the
channel is active from its first step to its last.

As with pushing, the loop is given step by step. The sink is whatever other threads do between the steps `deliver` and
`decide`; the loop itself only keeps the packets that it has handed over.

* `step_left`: a loop that has ended stays as it is.
* `step_decide_of_stopped`: after a packet no other is fetched if the loop is told to stop.
-/

namespace MediaChannels

/-- What a pull loop does next. -/
inductive PullPhase where
  | enter
  /-- Look whether to stop. -/
  | check
  /-- Begin a walk over what is unread. -/
  | begin
  /-- Fetch the next packet of a walk; `received` tells whether the walk has given one before. -/
  | fetch (walk : Poll) (received : Bool)
  /-- Hand a packet to the sink. -/
  | deliver (walk : Poll) (packet : IndexedPacket)
  /-- Look whether to stop, after a packet. -/
  | decide (walk : Poll)
  /-- Count what a walk has skipped. -/
  | account (walk : Poll) (received : Bool)
  /-- Wait until it is time to look again. -/
  | wait
  | leave
  | left
  deriving DecidableEq, Repr

/-- A pull loop: its phase, its cursor, its counters, and the packets that the sink has got. -/
structure PullLoop where
  phase : PullPhase := .enter
  cursor : UInt64 := 0
  stats : ForwardStats := {}
  delivered : List IndexedPacket := []
  deriving DecidableEq, Repr

namespace PullLoop

/-- One step. -/
def step (f : Forwarder) (l : PullLoop) (env : Environment) : PullLoop × Environment :=
  match l.phase with
  | .enter => ({ l with phase := .check }, (env.access (f.channel.setActive true)).2)
  | .check => ({ l with phase := if f.isStopped env.office then .leave else .begin }, env)
  | .begin =>
    let (walk, env) := env.access (f.channel.packets.poll l.cursor)
    ({ l with phase := .fetch walk false }, env)
  | .fetch walk received =>
    match env.access (f.channel.packets.next walk) with
    | ((some packet, walk), env) => ({ l with phase := .deliver walk packet, cursor := walk.cursor }, env)
    | ((none, walk), env) => ({ l with phase := .account walk received, cursor := walk.cursor }, env)
  | .deliver walk packet =>
    ({ l with
       phase := .decide walk
       stats := { l.stats with forwarded := l.stats.forwarded + 1 }
       delivered := l.delivered ++ [packet] }, env)
  | .decide walk =>
    ({ l with phase := if f.isStopped env.office then .account walk true else .fetch walk true }, env)
  | .account walk received =>
    ({ l with
       phase := if received then .check else .wait
       stats := { l.stats with skipped := l.stats.skipped + walk.skipped.toNat } }, env)
  | .wait => ({ l with phase := .check }, env)
  | .leave => ({ l with phase := .left }, (env.access (f.channel.setActive false)).2)
  | .left => (l, env)

/-- Whether the loop waits for something that others do, or has ended. -/
def isPaused (l : PullLoop) : Bool := l.phase = .wait || l.phase = .left

/-- Whether the sink has just got a packet. -/
def hasDelivered (l : PullLoop) : Bool :=
  match l.phase with
  | .decide _ => true
  | _ => false

/-- Runs the loop until it is paused, for at most `fuel` steps. The sink acts after every delivery and keeps something
for itself. -/
def runWith {σ : Type} (f : Forwarder) (sink : PullLoop → σ → Environment → σ × Environment) :
    Nat → PullLoop → σ → Environment → PullLoop × σ × Environment
  | 0, l, kept, env => (l, kept, env)
  | fuel + 1, l, kept, env =>
    if l.isPaused then (l, kept, env)
    else
      let (l, env) := step f l env
      let (kept, env) := if l.hasDelivered then sink l kept env else (kept, env)
      runWith f sink fuel l kept env

/-- Steps that it takes at most to read what a ring holds and `more` packets that are pushed meanwhile: three for every
packet, and four for a walk, which there is at most one of for every packet. -/
def roundSteps (f : Forwarder) (more : Nat) (env : Environment) : Nat :=
  let slots := (env.access f.channel.packets.queueSize).1
  7 * (slots.toNat + more) + 16

/-- Ends a pause, as a time-out does, and runs the loop until the next one; the sink pushes up to `more` packets. -/
def settleWith {σ : Type} (f : Forwarder) (sink : PullLoop → σ → Environment → σ × Environment) (more : Nat)
    (l : PullLoop) (kept : σ) (env : Environment) : PullLoop × σ × Environment :=
  let fuel := roundSteps f more env
  let (l, env) := step f l env
  runWith f sink fuel l kept env

/-- `settleWith` with a sink that does nothing. -/
def settle (f : Forwarder) (l : PullLoop) (env : Environment) : PullLoop × Environment :=
  let (l, _, env) := settleWith f (fun _ kept env => (kept, env)) 0 l () env
  (l, env)

theorem step_left (f : Forwarder) {l : PullLoop} (h : l.phase = .left) (env : Environment) :
    step f l env = (l, env) := by
  simp [step, h]

theorem step_decide_of_stopped {f : Forwarder} {l : PullLoop} {walk : Poll} {env : Environment}
    (h : f.isStopped env.office = true) (hp : l.phase = .decide walk) :
    step f l env = ({ l with phase := .account walk true }, env) := by
  simp [step, h, hp]

end PullLoop

end MediaChannels
