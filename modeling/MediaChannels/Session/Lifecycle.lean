import MediaChannels.Mail.Office
import MediaChannels.Error

/-!
# Life of a session

A session runs for a while, stops, and can be started again. Any number of threads may start it, stop it and wait for
its end at the same time, and its two workers, capture and forwarding, stop it when they end by themselves.

Every thread has a list of what it still has to do. One step of a thread is what it does while it holds the lock of the
state, of the mailbox or of the worker list; the launch lock and the join lock are held from step to step, and a thread
that wants one of them while another has it makes no step.

* `step_of_finished`: a thread without anything to do makes no step.
* `step_begin_of_ne_stopped`: only a stopped session can be started.
* `state_markStopping`: stopping takes a session out of the states in which it runs.
-/

namespace MediaChannels

/-- The two workers of a session. -/
inductive WorkerRole where
  | capture
  | forward
  deriving DecidableEq, Repr

/-- What a thread does in one step. -/
inductive SessionOp where
  | lockLaunch
  | unlockLaunch
  /-- Enter the starting state and fix the mailbox of the run. -/
  | begin
  /-- Look for a working encoder. -/
  | probe
  /-- Go back to being stopped after no encoder was found. -/
  | cancel
  /-- Look whether the session was stopped while encoders were probed. -/
  | recheck
  | spawn (role : WorkerRole)
  /-- Put a worker that runs into the list of those that have to be waited for. -/
  | register (worker : Nat)
  /-- Enter the running state, unless the session was stopped meanwhile. -/
  | finish
  /-- Enter the stopping state, if the session starts or runs. -/
  | markStopping
  | fetchMailbox
  | raiseShutdown (mailbox : Nat)
  | closePackets (mailbox : Nat)
  | lockJoin
  | unlockJoin
  /-- Wait until the session neither starts nor runs. -/
  | awaitEnd
  /-- Look whether somebody else has waited for the workers already. -/
  | recheckEnd
  | takeWorkers
  /-- Wait for the end of a worker. -/
  | reap (worker : Nat)
  | markStopped
  /-- Do the work of a worker. -/
  | work
  deriving DecidableEq, Repr

/-- A thread: what it is, what it has to do, the mailbox that it was given, and what it will answer. -/
structure SessionThread where
  todo : List SessionOp
  role : Option WorkerRole := none
  mailbox : Nat := 0
  answer : Except Error Unit := .ok ()

/-- A thread that has nothing to do. -/
instance : Inhabited SessionThread := ⟨{ todo := [] }⟩

/-- The part of a session that its threads share, and the threads. -/
structure Lifecycle where
  kind : ChannelKind
  mailbox : Nat
  state : SessionState := .stopped
  /-- Who holds the launch lock. -/
  launching : Option Nat := none
  /-- Who holds the join lock. -/
  joining : Option Nat := none
  /-- The workers that have to be waited for. -/
  workers : List Nat := []
  threads : Array SessionThread := #[]

namespace Lifecycle

/-- What a call that starts a session does. -/
def startOps : List SessionOp := [.lockLaunch, .begin]

/-- What a call that stops a session does. -/
def stopOps : List SessionOp := [.markStopping]

/-- What a call that waits for the end of a session does. -/
def joinOps : List SessionOp := [.lockJoin, .awaitEnd]

/-- What a worker does: its work, and stopping the session when it ends. -/
def workerOps : List SessionOp := .work :: stopOps

/-- The error with which a start fails that finds no encoder. -/
def probeError : Error → Error
  | .probeFailed reason => .probeFailed reason
  | e => .probeFailed e.message

variable (l : Lifecycle)

/-- The thread with a number. -/
def thread (t : Nat) : SessionThread := l.threads[t]?.getD default

/-- Whether a thread has something to do. -/
def isAlive (t : Nat) : Bool := !(l.thread t).todo.isEmpty

/-- Adds a thread. -/
def add (thread : SessionThread) : Nat × Lifecycle := (l.threads.size, { l with threads := l.threads.push thread })

/-- Replaces a thread. -/
def setThread (t : Nat) (thread : SessionThread) : Lifecycle := { l with threads := l.threads.setIfInBounds t thread }

/-- Adds a thread that calls the session. -/
def call (ops : List SessionOp) : Nat × Lifecycle := l.add { todo := ops }

/-- The session after thread `t`, which is `self`, has done something and has `todo` left. -/
def proceed (t : Nat) (self : SessionThread) (todo : List SessionOp) : Lifecycle := l.setThread t { self with todo }

/-- The session after thread `t` has found out what it will answer, and has `todo` left. -/
def reject (t : Nat) (self : SessionThread) (e : Error) (todo : List SessionOp) : Lifecycle :=
  l.setThread t { self with todo, answer := .error e }

/-- One step of a thread; `none` if it has to wait, or has nothing to do. Whether a probe finds an encoder and whether a
worker can be spawned is decided outside, by `outcome`. -/
def step (office : Office) (t : Nat) (outcome : Except Error Unit) : Option (Lifecycle × Office) :=
  let self := l.thread t
  match self.todo with
  | [] => none
  | op :: rest =>
    match op with
    | .lockLaunch =>
      if l.launching.isSome then none else some ({ l.proceed t self rest with launching := some t }, office)
    | .unlockLaunch => some ({ l.proceed t self rest with launching := none }, office)
    | .begin =>
      if l.state ≠ .stopped then some (l.reject t self (.wrongState l.state) (.unlockLaunch :: rest), office)
      else
        let (mailbox, office) := if office.isRaised l.mailbox .shutdown then office.addMailbox else (l.mailbox, office)
        some ({ l.proceed t { self with mailbox } (.probe :: rest) with state := .starting, mailbox }, office)
    | .probe =>
      match outcome with
      | .ok () => some (l.proceed t self (.recheck :: rest), office)
      | .error e => some (l.reject t self (probeError e) (.cancel :: rest), office)
    | .cancel => some ({ l.proceed t self (.unlockLaunch :: rest) with state := .stopped }, office)
    | .recheck =>
      if l.state ≠ .starting then
        some ({ l.reject t self (.wrongState l.state) (.unlockLaunch :: rest) with state := .stopped }, office)
      else some (l.proceed t self (.spawn .capture :: .spawn .forward :: .unlockLaunch :: .finish :: rest), office)
    | .spawn role =>
      match outcome with
      | .ok () =>
        let (worker, l) := l.add { todo := workerOps, role := some role, mailbox := self.mailbox }
        some (l.proceed t self (.register worker :: rest), office)
      | .error e => some (l.reject t self e (stopOps ++ .unlockLaunch :: stopOps ++ joinOps), office)
    | .register worker => some ({ l.proceed t self rest with workers := l.workers ++ [worker] }, office)
    | .finish =>
      some ({ l.proceed t self rest with state := if l.state = .starting then .running else l.state }, office)
    | .markStopping =>
      if l.state = .starting ∨ l.state = .running then
        some ({ l.proceed t self (.fetchMailbox :: rest) with state := .stopping }, office)
      else some (l.proceed t self rest, office)
    | .fetchMailbox => some (l.proceed t self (.raiseShutdown l.mailbox :: .closePackets l.mailbox :: rest), office)
    | .raiseShutdown mailbox => some (l.proceed t self rest, office.shutDown mailbox)
    | .closePackets mailbox => some (l.proceed t self rest, office.closePackets mailbox l.kind)
    | .lockJoin => if l.joining.isSome then none else some ({ l.proceed t self rest with joining := some t }, office)
    | .unlockJoin => some ({ l.proceed t self rest with joining := none }, office)
    | .awaitEnd =>
      if l.state = .starting ∨ l.state = .running then none
      else if l.state = .stopped then some (l.proceed t self (.unlockJoin :: rest), office)
      else some (l.proceed t self (.lockLaunch :: .recheckEnd :: rest), office)
    | .recheckEnd =>
      if l.state = .stopped then some (l.proceed t self (.unlockLaunch :: .unlockJoin :: rest), office)
      else some (l.proceed t self (.takeWorkers :: rest), office)
    | .takeWorkers =>
      let todo := l.workers.map .reap ++ .markStopped :: .unlockLaunch :: .unlockJoin :: rest
      some ({ l.proceed t self todo with workers := [] }, office)
    | .reap worker => if l.isAlive worker then none else some (l.proceed t self rest, office)
    | .markStopped => some ({ l.proceed t self rest with state := .stopped }, office)
    | .work => some (l.proceed t self rest, office)

theorem step_of_finished {t : Nat} (h : (l.thread t).todo = []) (office : Office) (outcome : Except Error Unit) :
    l.step office t outcome = none := by
  simp [step, h]

theorem step_begin_of_ne_stopped {t : Nat} {rest : List SessionOp} (h : (l.thread t).todo = .begin :: rest)
    (hs : l.state ≠ .stopped) (office : Office) (outcome : Except Error Unit) :
    l.step office t outcome =
      some (l.reject t (l.thread t) (.wrongState l.state) (.unlockLaunch :: rest), office) := by
  simp [step, h, hs]

theorem state_markStopping {t : Nat} {rest : List SessionOp} (h : (l.thread t).todo = .markStopping :: rest)
    {office office' : Office} {outcome : Except Error Unit} {l' : Lifecycle}
    (hs : l.step office t outcome = some (l', office')) : l'.state ≠ .starting ∧ l'.state ≠ .running := by
  simp only [step, h] at hs
  split at hs
  · cases hs
    simp
  · next hn =>
    cases hs
    simp only [not_or] at hn
    exact hn

end Lifecycle

end MediaChannels
