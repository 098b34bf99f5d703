import MediaChannels.Proofs.Session.Exclusion

/-!
# A start that fails waits for its worker

A thread is rejected before it has spawned anything, or it fails when it spawns a worker and then waits for the end of
the session.

* `SessionThread.Goes`: what a step does to the thread that makes it.
* `SessionThread.AnswersFor`: a thread has not failed and will not be rejected, or is going to wait for a worker.
  `Goes.answersFor`: so it stays as long as the worker is alive.
* `Lifecycle.StepsTo`, `Sound.stepsTo`: what a step does to all threads.
-/

namespace MediaChannels

/-! ## How a thread goes on -/

namespace SessionOp

/-- What can lead to the spawn of a worker, and is not done any more when a start has failed. -/
def launches : SessionOp → Bool
  | begin | probe | recheck | spawn _ => true
  | _ => false

/-- Waiting for a worker, or going to. -/
def Awaits (w : Nat) : SessionOp → Prop
  | awaitEnd | recheckEnd | takeWorkers => True
  | reap v => v = w
  | _ => False

end SessionOp

/-- How a thread of a session is changed by a step that it makes. -/
inductive SessionThread.Goes (l : Lifecycle) (self th : SessionThread) : Prop where
  /-- It goes on: what it does now leads only to things of the same kind. -/
  | on {op : SessionOp} {rest : List SessionOp} (more : List SessionOp) (htodo : self.todo = op :: rest)
      (htodo' : th.todo = more ++ rest) (hanswer : th.answer = self.answer)
      (hmore : ∀ op' ∈ more, (op'.launches → op.launches) ∧ (op'.isChecking → op.isChecking))
      (hawaits : ∀ role w, l.Works role w → op.Awaits w → ∃ op' ∈ more, op'.Awaits w)
  /-- Its start has failed before it has spawned anything. -/
  | rejected {op : SessionOp} (htodo : self.todo = [op]) (hop : op.isChecking)
      (hlaunches : ∀ op' ∈ th.todo, op'.launches = false)
  /-- A worker could not be spawned, so it will wait for the others. -/
  | failed (hlaunches : ∀ op' ∈ th.todo, op'.launches = false) (hawaits : .awaitEnd ∈ th.todo)

namespace SessionThread

variable {l : Lifecycle} {self th : SessionThread} {role : WorkerRole} {w : Nat}

/-- A thread that can still spawn a worker has not failed. -/
def Hopeful (self : SessionThread) : Prop := ∀ op ∈ self.todo, op.launches → self.answer = .ok ()

/-- A thread that has spawned worker `w` has not failed and cannot be rejected any more, or it waits for the worker. -/
def AnswersFor (self : SessionThread) (w : Nat) : Prop :=
  (self.answer = .ok () ∧ ∀ op ∈ self.todo, op.isChecking = false) ∨ ∃ op ∈ self.todo, op.Awaits w

/-- A start that has spawned a worker registers it next. -/
theorem Goes.register {rest : List SessionOp} (htodo : self.todo = .spawn role :: rest) :
    self.Goes l { self with todo := .register w :: rest } :=
  .on [.register w] htodo rfl rfl (by simp [SessionOp.launches, SessionOp.isChecking]) nofun

theorem Goes.hopeful (h : self.Goes l th) (hself : self.Hopeful) : th.Hopeful := by
  intro op' hmem hlaunches
  cases h with
  | @on op rest more htodo htodo' hanswer hmore _ =>
    rw [hanswer]
    rw [htodo', List.mem_append] at hmem
    rcases hmem with hmem | hmem
    · exact hself op (by simp [htodo]) ((hmore op' hmem).1 hlaunches)
    · exact hself op' (by simp [htodo, hmem]) hlaunches
  | rejected _ _ hnone => rw [hnone op' hmem] at hlaunches; cases hlaunches
  | failed hnone _ => rw [hnone op' hmem] at hlaunches; cases hlaunches

/-- A thread stays answerable for a worker that is alive. -/
theorem Goes.answersFor (h : self.Goes l th) (hw : l.Works role w) (hself : self.AnswersFor w) : th.AnswersFor w := by
  cases h with
  | @on op rest more htodo htodo' hanswer hmore hawaits =>
    rw [AnswersFor, htodo] at hself
    rw [AnswersFor, htodo', hanswer]
    rcases hself with ⟨hok, hpast⟩ | ⟨op', hmem, hop'⟩
    · refine .inl ⟨hok, ?_⟩
      intro op' hmem
      rcases List.mem_append.mp hmem with hmem | hmem
      · have hop := hpast op List.mem_cons_self
        have himp := (hmore op' hmem).2
        simpa [hop] using himp
      · exact hpast op' (List.mem_cons_of_mem op hmem)
    · right
      rcases List.mem_cons.mp hmem with rfl | hmem
      · obtain ⟨op, hmem, hop⟩ := hawaits role w hw hop'
        exact ⟨op, List.mem_append_left rest hmem, hop⟩
      · exact ⟨op', List.mem_append_right more hmem, hop'⟩
  | @rejected op htodo hop hnone =>
    rw [AnswersFor, htodo] at hself
    rcases hself with ⟨_, hpast⟩ | ⟨op', hmem, hop'⟩
    · rw [hpast op List.mem_cons_self] at hop
      cases hop
    · rw [List.mem_singleton.mp hmem] at hop'
      cases op <;> first | exact hop'.elim | cases hop
  | failed _ hmem => exact .inr ⟨.awaitEnd, hmem, trivial⟩

end SessionThread

namespace Lifecycle

variable {l l' : Lifecycle} {office office' : Office} {outcome : Except Error Unit} {e : Errand} {t : Nat}

/-- What a step of thread `t` does to the threads. -/
inductive StepsTo (l : Lifecycle) (t : Nat) (l' : Lifecycle) : Prop where
  | moved {th : SessionThread} (hm : Moves l t th l') (hgoes : (l.thread t).Goes l th)
  /-- There is one more worker, which has to be registered. -/
  | spawned {role : WorkerRole} {rest : List SessionOp} {worker : SessionThread}
      (htodo : (l.thread t).todo = .spawn role :: rest) (hrole : worker.role = some role)
      (hanswer : worker.answer = .ok ())
      (hm : Moves (l.add worker).2 t { l.thread t with todo := .register l.threads.size :: rest } l')

/-- The only worker that comes to life is a new one. -/
theorem StepsTo.works {role : WorkerRole} {w : Nat} (h : l.StepsTo t l') (hw : l'.Works role w) :
    l.Works role w ∨ (w = l.threads.size ∧ l'.threads.size = l.threads.size + 1) := by
  cases h with
  | moved hm _ => exact .inl (hm.works hw)
  | spawned _ _ _ hm =>
    rcases works_add (hm.works hw) with hold | ⟨rfl, -⟩
    · exact .inl hold
    · exact .inr ⟨rfl, hm.size_of_add⟩

/-- A thread that finds out whether the session can be started goes on or is rejected; one that waits for a worker that
is alive goes on waiting. -/
theorem Sound.stepsTo (h : l.Sound e) (hstep : l.Step office t outcome l' office') : l.StepsTo t l' := by
  cases hstep with
  | beginRefused htodo _ | probeFailed htodo | recheckStopped htodo _ =>
    obtain ⟨_, rfl⟩ := h.plan_of_todo htodo
    exact .moved (.of_threads htodo rfl rfl) (.rejected htodo rfl (by simp [SessionOp.launches]))
  | begin htodo _ _ => exact .moved (.of_threads htodo rfl rfl) (.on [.probe] htodo rfl rfl (by decide) nofun)
  | probeFound htodo => exact .moved (.of_threads htodo rfl rfl) (.on [.recheck] htodo rfl rfl (by decide) nofun)
  | recheck htodo _ =>
    exact .moved (.of_threads htodo rfl rfl)
      (.on [.spawn .capture, .spawn .forward, .unlockLaunch, .finish] htodo rfl rfl (by decide) nofun)
  | spawn htodo => exact .spawned htodo rfl rfl (.of_threads_add htodo rfl rfl)
  | spawnFailed htodo =>
    exact .moved (.of_threads htodo rfl rfl)
      (.failed (by simp [stopOps, joinOps, SessionOp.launches]) (by simp [joinOps]))
  | awaitEndStopped htodo hstate =>
    refine .moved (.of_threads htodo rfl rfl) (.on [.unlockJoin] htodo rfl rfl (by decide) ?_)
    intro role w hw _
    exact (h.quiet hstate role w hw).elim
  | awaitEnd htodo _ =>
    refine .moved (.of_threads htodo rfl rfl) (.on [.lockLaunch, .recheckEnd] htodo rfl rfl (by decide) ?_)
    intro role w _ _
    exact ⟨.recheckEnd, by simp, trivial⟩
  | recheckEndStopped htodo hstate =>
    refine .moved (.of_threads htodo rfl rfl) (.on [.unlockLaunch, .unlockJoin] htodo rfl rfl (by decide) ?_)
    intro role w hw _
    exact (h.quiet hstate role w hw).elim
  | recheckEnd htodo _ =>
    refine .moved (.of_threads htodo rfl rfl) (.on [.takeWorkers] htodo rfl rfl (by decide) ?_)
    intro role w _ _
    exact ⟨.takeWorkers, by simp, trivial⟩
  | takeWorkers htodo =>
    obtain ⟨hheld, _⟩ := h.plan_of_todo htodo
    obtain ⟨_, rfl⟩ := of_errandOf hheld
    refine .moved (.of_threads htodo rfl rfl)
      (.on (l.workers.map .reap ++ [.markStopped, .unlockLaunch, .unlockJoin]) htodo (by simp) rfl ?_ ?_)
    · simp [SessionOp.launches, SessionOp.isChecking, or_imp, forall_and]
    · intro role w hw _
      -- Nobody has taken the list of workers before, so all that are alive are on it.
      obtain ⟨hw | hw, _⟩ := h.admits role w hw
      · exact ⟨.reap w, by simp [hw], rfl⟩
      · cases hw
  | reap htodo hended =>
    refine .moved (.of_threads htodo rfl rfl) (.on [] htodo rfl rfl nofun ?_)
    rintro role w hw rfl
    exact absurd hw.2 (by simp [hended])
  | markStopping htodo _ =>
    exact .moved (.of_threads htodo rfl rfl) (.on [.fetchMailbox] htodo rfl rfl (by decide) nofun)
  | fetchMailbox htodo =>
    exact .moved (.of_threads htodo rfl rfl) (.on [.raiseShutdown l.mailbox, .closePackets l.mailbox] htodo rfl rfl
      (by simp [SessionOp.launches, SessionOp.isChecking]) nofun)
  | cancel htodo => exact .moved (.of_threads htodo rfl rfl) (.on [.unlockLaunch] htodo rfl rfl (by decide) nofun)
  | lockLaunch htodo _ | unlockLaunch htodo | lockJoin htodo _ | unlockJoin htodo | register htodo | finish htodo
  | markStoppingIdle htodo _ | raiseShutdown htodo | closePackets htodo | markStopped htodo | work htodo =>
    exact .moved (.of_threads htodo rfl rfl) (.on [] htodo rfl rfl nofun nofun)

end Lifecycle

end MediaChannels
