import MediaChannels.Session.Lifecycle

/-!
# Steps of a session as rules

* `Lifecycle.Step`: the steps that a thread can make, one rule for each way in which it can go on.
* `Lifecycle.step_eq_some_iff`: these are the steps that `Lifecycle.step` makes, so a proof about all of them goes
  through the rules.
-/

namespace MediaChannels

namespace Lifecycle

/-- The steps of thread `t`. The outcome says whether a probe finds an encoder and whether a worker can be spawned. -/
inductive Step (l : Lifecycle) (office : Office) (t : Nat) : Except Error Unit → Lifecycle → Office → Prop where
  | lockLaunch {rest outcome} (htodo : (l.thread t).todo = .lockLaunch :: rest) (hfree : l.launching = none) :
      Step l office t outcome { l.proceed t (l.thread t) rest with launching := some t } office
  | unlockLaunch {rest outcome} (htodo : (l.thread t).todo = .unlockLaunch :: rest) :
      Step l office t outcome { l.proceed t (l.thread t) rest with launching := none } office
  /-- The session is not stopped, so it cannot be started. -/
  | beginRefused {rest outcome} (htodo : (l.thread t).todo = .begin :: rest) (hstate : l.state ≠ .stopped) :
      Step l office t outcome (l.reject t (l.thread t) (.wrongState l.state) (.unlockLaunch :: rest)) office
  /-- The mailbox of the run is a new one if the old one was shut down. -/
  | begin {rest outcome mailbox office'} (htodo : (l.thread t).todo = .begin :: rest) (hstate : l.state = .stopped)
      (hmail : (if office.isRaised l.mailbox .shutdown then office.addMailbox else (l.mailbox, office)) =
        (mailbox, office')) :
      Step l office t outcome
        { l.proceed t { l.thread t with mailbox } (.probe :: rest) with state := .starting, mailbox } office'
  | probeFound {rest} (htodo : (l.thread t).todo = .probe :: rest) :
      Step l office t (.ok ()) (l.proceed t (l.thread t) (.recheck :: rest)) office
  | probeFailed {rest e} (htodo : (l.thread t).todo = .probe :: rest) :
      Step l office t (.error e) (l.reject t (l.thread t) (probeError e) (.cancel :: rest)) office
  | cancel {rest outcome} (htodo : (l.thread t).todo = .cancel :: rest) :
      Step l office t outcome { l.proceed t (l.thread t) (.unlockLaunch :: rest) with state := .stopped } office
  /-- The session was stopped while encoders were probed. -/
  | recheckStopped {rest outcome} (htodo : (l.thread t).todo = .recheck :: rest) (hstate : l.state ≠ .starting) :
      Step l office t outcome
        { l.reject t (l.thread t) (.wrongState l.state) (.unlockLaunch :: rest) with state := .stopped } office
  | recheck {rest outcome} (htodo : (l.thread t).todo = .recheck :: rest) (hstate : l.state = .starting) :
      Step l office t outcome
        (l.proceed t (l.thread t) (.spawn .capture :: .spawn .forward :: .unlockLaunch :: .finish :: rest)) office
  | spawn {rest role} (htodo : (l.thread t).todo = .spawn role :: rest) :
      Step l office t (.ok ())
        ((l.add { todo := workerOps, role := some role, mailbox := (l.thread t).mailbox }).2.proceed t (l.thread t)
          (.register l.threads.size :: rest)) office
  | spawnFailed {rest role e} (htodo : (l.thread t).todo = .spawn role :: rest) :
      Step l office t (.error e)
        (l.reject t (l.thread t) e (stopOps ++ .unlockLaunch :: stopOps ++ joinOps)) office
  | register {rest w outcome} (htodo : (l.thread t).todo = .register w :: rest) :
      Step l office t outcome { l.proceed t (l.thread t) rest with workers := l.workers ++ [w] } office
  | finish {rest outcome} (htodo : (l.thread t).todo = .finish :: rest) :
      Step l office t outcome
        { l.proceed t (l.thread t) rest with state := if l.state = .starting then .running else l.state } office
  | markStopping {rest outcome} (htodo : (l.thread t).todo = .markStopping :: rest)
      (hstate : l.state = .starting ∨ l.state = .running) :
      Step l office t outcome { l.proceed t (l.thread t) (.fetchMailbox :: rest) with state := .stopping } office
  /-- There is nothing to stop. -/
  | markStoppingIdle {rest outcome} (htodo : (l.thread t).todo = .markStopping :: rest)
      (hstate : ¬(l.state = .starting ∨ l.state = .running)) :
      Step l office t outcome (l.proceed t (l.thread t) rest) office
  | fetchMailbox {rest outcome} (htodo : (l.thread t).todo = .fetchMailbox :: rest) :
      Step l office t outcome
        (l.proceed t (l.thread t) (.raiseShutdown l.mailbox :: .closePackets l.mailbox :: rest)) office
  | raiseShutdown {rest mailbox outcome} (htodo : (l.thread t).todo = .raiseShutdown mailbox :: rest) :
      Step l office t outcome (l.proceed t (l.thread t) rest) (office.shutDown mailbox)
  | closePackets {rest mailbox outcome} (htodo : (l.thread t).todo = .closePackets mailbox :: rest) :
      Step l office t outcome (l.proceed t (l.thread t) rest) (office.closePackets mailbox l.kind)
  | lockJoin {rest outcome} (htodo : (l.thread t).todo = .lockJoin :: rest) (hfree : l.joining = none) :
      Step l office t outcome { l.proceed t (l.thread t) rest with joining := some t } office
  | unlockJoin {rest outcome} (htodo : (l.thread t).todo = .unlockJoin :: rest) :
      Step l office t outcome { l.proceed t (l.thread t) rest with joining := none } office
  | awaitEndStopped {rest outcome} (htodo : (l.thread t).todo = .awaitEnd :: rest) (hstate : l.state = .stopped) :
      Step l office t outcome (l.proceed t (l.thread t) (.unlockJoin :: rest)) office
  | awaitEnd {rest outcome} (htodo : (l.thread t).todo = .awaitEnd :: rest) (hstate : l.state = .stopping) :
      Step l office t outcome (l.proceed t (l.thread t) (.lockLaunch :: .recheckEnd :: rest)) office
  | recheckEndStopped {rest outcome} (htodo : (l.thread t).todo = .recheckEnd :: rest) (hstate : l.state = .stopped) :
      Step l office t outcome (l.proceed t (l.thread t) (.unlockLaunch :: .unlockJoin :: rest)) office
  | recheckEnd {rest outcome} (htodo : (l.thread t).todo = .recheckEnd :: rest) (hstate : l.state ≠ .stopped) :
      Step l office t outcome (l.proceed t (l.thread t) (.takeWorkers :: rest)) office
  | takeWorkers {rest outcome} (htodo : (l.thread t).todo = .takeWorkers :: rest) :
      Step l office t outcome
        { l.proceed t (l.thread t) (l.workers.map .reap ++ .markStopped :: .unlockLaunch :: .unlockJoin :: rest) with
          workers := [] } office
  | reap {rest w outcome} (htodo : (l.thread t).todo = .reap w :: rest) (hended : l.isAlive w = false) :
      Step l office t outcome (l.proceed t (l.thread t) rest) office
  | markStopped {rest outcome} (htodo : (l.thread t).todo = .markStopped :: rest) :
      Step l office t outcome { l.proceed t (l.thread t) rest with state := .stopped } office
  | work {rest outcome} (htodo : (l.thread t).todo = .work :: rest) :
      Step l office t outcome (l.proceed t (l.thread t) rest) office

variable {l l' : Lifecycle} {office office' : Office} {t : Nat} {outcome : Except Error Unit}

/-- Every step that is made follows a rule. -/
theorem step_of_step (h : l.step office t outcome = some (l', office')) : l.Step office t outcome l' office' := by
  cases htodo : (l.thread t).todo with
  | nil => rw [step_of_finished l htodo] at h; cases h
  | cons op rest =>
    cases op with
    | lockLaunch =>
      simp only [step, htodo] at h
      split at h <;> cases h
      next hfree => exact .lockLaunch htodo (by simpa using hfree)
    | begin =>
      simp only [step, htodo] at h
      split at h <;> cases h
      · next hstate => exact .beginRefused htodo hstate
      · next hstate => exact .begin htodo (Decidable.not_not.mp hstate) rfl
    | probe =>
      simp only [step, htodo] at h
      split at h <;> cases h
      · exact .probeFound htodo
      · exact .probeFailed htodo
    | recheck =>
      simp only [step, htodo] at h
      split at h <;> cases h
      · next hstate => exact .recheckStopped htodo hstate
      · next hstate => exact .recheck htodo (Decidable.not_not.mp hstate)
    | spawn role =>
      simp only [step, htodo] at h
      split at h <;> cases h
      · exact .spawn htodo
      · exact .spawnFailed htodo
    | markStopping =>
      simp only [step, htodo] at h
      split at h <;> cases h
      · next hstate => exact .markStopping htodo hstate
      · next hstate => exact .markStoppingIdle htodo hstate
    | lockJoin =>
      simp only [step, htodo] at h
      split at h <;> cases h
      next hfree => exact .lockJoin htodo (by simpa using hfree)
    | awaitEnd =>
      simp only [step, htodo] at h
      split at h
      · cases h
      next hactive =>
      split at h <;> cases h
      · next hstate => exact .awaitEndStopped htodo hstate
      · next hstate =>
        refine .awaitEnd htodo ?_
        cases hs : l.state <;> simp_all
    | recheckEnd =>
      simp only [step, htodo] at h
      split at h <;> cases h
      · next hstate => exact .recheckEndStopped htodo hstate
      · next hstate => exact .recheckEnd htodo hstate
    | reap w =>
      simp only [step, htodo] at h
      split at h <;> cases h
      next hended => exact .reap htodo (by simpa using hended)
    | unlockLaunch => simp only [step, htodo] at h; cases h; exact .unlockLaunch htodo
    | cancel => simp only [step, htodo] at h; cases h; exact .cancel htodo
    | register w => simp only [step, htodo] at h; cases h; exact .register htodo
    | finish => simp only [step, htodo] at h; cases h; exact .finish htodo
    | fetchMailbox => simp only [step, htodo] at h; cases h; exact .fetchMailbox htodo
    | raiseShutdown mailbox => simp only [step, htodo] at h; cases h; exact .raiseShutdown htodo
    | closePackets mailbox => simp only [step, htodo] at h; cases h; exact .closePackets htodo
    | unlockJoin => simp only [step, htodo] at h; cases h; exact .unlockJoin htodo
    | takeWorkers => simp only [step, htodo] at h; cases h; exact .takeWorkers htodo
    | markStopped => simp only [step, htodo] at h; cases h; exact .markStopped htodo
    | work => simp only [step, htodo] at h; cases h; exact .work htodo

/-- **The rules are what threads do**: a step is made exactly when a rule allows it. -/
theorem step_eq_some_iff : l.step office t outcome = some (l', office') ↔ l.Step office t outcome l' office' := by
  refine ⟨step_of_step, fun h => ?_⟩
  cases h with
  | begin htodo hstate hmail => simp [step, htodo, hstate, hmail]
  | awaitEnd htodo hstate => simp [step, htodo, hstate]
  | awaitEndStopped htodo hstate => simp [step, htodo, hstate]
  | spawn htodo => simp only [step, htodo]; rfl
  | _ => simp_all [step]

end Lifecycle

end MediaChannels
