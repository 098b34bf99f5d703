import MediaChannels.Proofs.Session.LaunchLock
import MediaChannels.Proofs.Session.Steps

/-!
# Every step respects the launch lock

One lemma for each thing that a thread does with the lock or with the workers, which says what errand it is on then; all
others go past them.

* `Sound.begin` to `Sound.register`: a start. Only a session that is stopped is started, so nobody is alive while
  encoders are looked for, and the first worker of a role is the only one.
* `Sound.takeWorkers` to `Sound.markStopped`: the wait for the end. Those that are waited for are all that can be alive,
  so nobody is when the session is marked stopped.
* `Sound.step`: every step keeps the invariant.
-/

namespace MediaChannels

namespace Lifecycle

variable {l l' : Lifecycle} {office office' : Office} {outcome : Except Error Unit} {e : Errand} {t w : Nat}
  {role : WorkerRole} {rest : List SessionOp}

namespace Sound

section

variable (h : l.Sound e)

include h

/-! ## The lock -/

theorem lockLaunch (htodo : (l.thread t).todo = .lockLaunch :: rest) (hfree : l.launching = none) :
    Sound { l.proceed t (l.thread t) rest with launching := some t } .idle := by
  obtain ⟨_, hrest⟩ := h.plan_of_todo htodo
  obtain rfl := h.idle hfree
  refine h.move (.of_threads htodo rfl rfl) ?_ ?_ nofun (fun _ _ _ hw => hw) (fun hroles => (hroles rfl).elim) .inl
  · rwa [errandOf_holder rfl]
  · intro u hu
    rw [errandOf_other (by simpa using Ne.symm hu), errandOf_other (by simp [hfree])]

theorem unlockLaunch (htodo : (l.thread t).todo = .unlockLaunch :: rest) :
    Sound { l.proceed t (l.thread t) rest with launching := none } .idle := by
  obtain ⟨hheld, hrest⟩ := h.plan_of_todo htodo
  obtain ⟨hholder, rfl⟩ := of_errandOf hheld
  refine h.move (.of_threads htodo rfl rfl) ?_ ?_ (fun _ => rfl) (fun _ _ _ hw => hw)
    (fun hroles => (hroles rfl).elim) .inl
  · rwa [errandOf_other (by simp)]
  · intro u hu
    rw [errandOf_other (by simp), errandOf_other (ne_holder hholder hu)]

/-! ## Starting -/

theorem beginRefused {err : Error} (htodo : (l.thread t).todo = .begin :: rest) :
    (l.reject t (l.thread t) err (.unlockLaunch :: rest)).Sound .idle := by
  obtain ⟨hheld, rfl⟩ := h.plan_of_todo htodo
  exact h.goOn (.of_threads htodo rfl rfl) hheld rfl rfl rfl ⟨rfl, rfl⟩ fun _ _ _ hw => hw

/-- A session that is stopped has no workers, so nobody is alive when it starts. -/
theorem begin {mailbox : Nat} (htodo : (l.thread t).todo = .begin :: rest) (hstate : l.state = .stopped) :
    Sound { l.proceed t { l.thread t with mailbox } (.probe :: rest) with state := .starting, mailbox } .check := by
  obtain ⟨hheld, rfl⟩ := h.plan_of_todo htodo
  refine h.carryOn (.of_threads htodo rfl rfl) hheld rfl ⟨rfl, rfl⟩ ?_ (fun hroles => (hroles rfl).elim) nofun
  intro role w hw
  exact (h.quiet hstate role w hw).elim

theorem probeFound (htodo : (l.thread t).todo = .probe :: rest) :
    (l.proceed t (l.thread t) (.recheck :: rest)).Sound .check := by
  obtain ⟨hheld, rfl⟩ := h.plan_of_todo htodo
  exact h.goOn (.of_threads htodo rfl rfl) hheld rfl rfl rfl ⟨rfl, rfl⟩ fun _ _ _ hw => hw

theorem probeFailed {err : Error} (htodo : (l.thread t).todo = .probe :: rest) :
    (l.reject t (l.thread t) err (.cancel :: rest)).Sound .check := by
  obtain ⟨hheld, rfl⟩ := h.plan_of_todo htodo
  exact h.goOn (.of_threads htodo rfl rfl) hheld rfl rfl rfl ⟨rfl, rfl⟩ fun _ _ _ hw => hw

theorem cancel (htodo : (l.thread t).todo = .cancel :: rest) :
    Sound { l.proceed t (l.thread t) (.unlockLaunch :: rest) with state := .stopped } .idle := by
  obtain ⟨hheld, rfl⟩ := h.plan_of_todo htodo
  exact h.carryOn (.of_threads htodo rfl rfl) hheld rfl ⟨rfl, rfl⟩ (fun _ _ _ hw => hw.elim)
    (fun hroles => (hroles rfl).elim) fun _ => .inr fun _ _ hw => hw

theorem recheckStopped {err : Error} (htodo : (l.thread t).todo = .recheck :: rest) :
    Sound { l.reject t (l.thread t) err (.unlockLaunch :: rest) with state := .stopped } .idle := by
  obtain ⟨hheld, rfl⟩ := h.plan_of_todo htodo
  exact h.carryOn (.of_threads htodo rfl rfl) hheld rfl ⟨rfl, rfl⟩ (fun _ _ _ hw => hw.elim)
    (fun hroles => (hroles rfl).elim) fun _ => .inr fun _ _ hw => hw

theorem recheck (htodo : (l.thread t).todo = .recheck :: rest) (hstate : l.state = .starting) :
    (l.proceed t (l.thread t) (.spawn .capture :: .spawn .forward :: .unlockLaunch :: .finish :: rest)).Sound
      (.launch [.capture, .forward] none) := by
  obtain ⟨hheld, rfl⟩ := h.plan_of_todo htodo
  refine h.carryOn (.of_threads htodo rfl rfl) hheld rfl .launch (fun _ _ _ hw => hw.elim) ?_ .inl
  intro _ hstopped
  exact nomatch hstate.symm.trans hstopped

theorem spawned {mailbox : Nat} (htodo : (l.thread t).todo = .spawn role :: rest) :
    ∃ roles, ((l.add { todo := workerOps, role := some role, mailbox }).2.proceed t (l.thread t)
      (.register l.threads.size :: rest)).Sound (.launch roles (some l.threads.size)) := by
  obtain ⟨roles, hheld, hrole, hrest, _⟩ := h.plan_of_todo htodo
  exact ⟨roles, h.spawn hheld rfl .workerOps (.of_threads_add htodo rfl rfl) rfl rfl rfl hrole ⟨roles, rfl, hrest⟩⟩

theorem spawnFailed {err : Error} (htodo : (l.thread t).todo = .spawn role :: rest) :
    (l.reject t (l.thread t) err (stopOps ++ .unlockLaunch :: stopOps ++ joinOps)).Sound .idle := by
  obtain ⟨roles, hheld, _⟩ := h.plan_of_todo htodo
  refine h.goOn (.of_threads htodo rfl rfl) hheld rfl rfl rfl ⟨rfl, rfl, rfl⟩ ?_
  intro role w _ hw
  exact ⟨hw.1, List.not_mem_nil⟩

theorem register (htodo : (l.thread t).todo = .register w :: rest) :
    ∃ roles, Sound { l.proceed t (l.thread t) rest with workers := l.workers ++ [w] } (.launch roles none) := by
  obtain ⟨roles, hheld, hrest⟩ := h.plan_of_todo htodo
  obtain ⟨_, rfl⟩ := of_errandOf hheld
  refine ⟨roles, h.carryOn (.of_threads htodo rfl rfl) hheld rfl hrest ?_ h.spawning .inl⟩
  rintro role v - ⟨hv | hv, hrole⟩
  · exact ⟨.inl (List.mem_append_left _ hv), hrole⟩
  · cases hv
    exact ⟨.inl (by simp), hrole⟩

/-! ## Waiting for the end -/

theorem recheckEndStopped (htodo : (l.thread t).todo = .recheckEnd :: rest) :
    (l.proceed t (l.thread t) (.unlockLaunch :: .unlockJoin :: rest)).Sound .idle := by
  obtain ⟨hheld, hrest⟩ := h.plan_of_todo htodo
  exact h.goOn (.of_threads htodo rfl rfl) hheld rfl rfl rfl ⟨rfl, hrest⟩ fun _ _ _ hw => hw

theorem recheckEnd (htodo : (l.thread t).todo = .recheckEnd :: rest) :
    (l.proceed t (l.thread t) (.takeWorkers :: rest)).Sound .idle := by
  obtain ⟨hheld, hrest⟩ := h.plan_of_todo htodo
  exact h.goOn (.of_threads htodo rfl rfl) hheld rfl rfl rfl ⟨rfl, hrest⟩ fun _ _ _ hw => hw

/-- Whoever takes the list of workers finds all on it that can be alive. -/
theorem takeWorkers (htodo : (l.thread t).todo = .takeWorkers :: rest) :
    Sound { l.proceed t (l.thread t) (l.workers.map .reap ++ .markStopped :: .unlockLaunch :: .unlockJoin :: rest) with
      workers := [] } (.collect l.workers) := by
  obtain ⟨hheld, hrest⟩ := h.plan_of_todo htodo
  have hplan : Plan (.markStopped :: .unlockLaunch :: .unlockJoin :: rest) (some (.collect [])) := ⟨rfl, rfl, hrest⟩
  refine h.goOn (.of_threads htodo rfl rfl) hheld rfl rfl rfl (hplan.collect l.workers) ?_
  rintro role w - ⟨hw | hw, -⟩
  · exact hw
  · cases hw

theorem reap (htodo : (l.thread t).todo = .reap w :: rest) (hended : l.isAlive w = false) :
    ∃ workers, (l.proceed t (l.thread t) rest).Sound (.collect workers) := by
  obtain ⟨workers, hheld, hrest⟩ := h.plan_of_todo htodo
  refine ⟨workers, h.goOn (.of_threads htodo rfl rfl) hheld rfl rfl rfl hrest ?_⟩
  intro role v hv hmem
  rcases List.mem_cons.mp hmem with rfl | hmem
  · exact absurd hv.2 (by simp [hended])
  · exact hmem

theorem markStopped (htodo : (l.thread t).todo = .markStopped :: rest) :
    Sound { l.proceed t (l.thread t) rest with state := .stopped } .idle := by
  obtain ⟨hheld, hrest⟩ := h.plan_of_todo htodo
  exact h.carryOn (.of_threads htodo rfl rfl) hheld rfl hrest (fun _ _ _ hw => nomatch hw)
    (fun hroles => (hroles rfl).elim) fun _ => .inr fun _ _ hw => nomatch hw

end

/-! ## All steps -/

/-- **Every step keeps the invariant.** -/
theorem step (h : l.Sound e) (hstep : l.Step office t outcome l' office') : ∃ e', l'.Sound e' := by
  cases hstep with
  | lockLaunch htodo hfree => exact ⟨_, h.lockLaunch htodo hfree⟩
  | unlockLaunch htodo => exact ⟨_, h.unlockLaunch htodo⟩
  | beginRefused htodo _ => exact ⟨_, h.beginRefused htodo⟩
  | begin htodo hstate _ => exact ⟨_, h.begin htodo hstate⟩
  | probeFound htodo => exact ⟨_, h.probeFound htodo⟩
  | probeFailed htodo => exact ⟨_, h.probeFailed htodo⟩
  | cancel htodo => exact ⟨_, h.cancel htodo⟩
  | recheckStopped htodo _ => exact ⟨_, h.recheckStopped htodo⟩
  | recheck htodo hstate => exact ⟨_, h.recheck htodo hstate⟩
  | spawn htodo =>
    obtain ⟨roles, hsound⟩ := h.spawned htodo
    exact ⟨_, hsound⟩
  | spawnFailed htodo => exact ⟨_, h.spawnFailed htodo⟩
  | register htodo =>
    obtain ⟨roles, hsound⟩ := h.register htodo
    exact ⟨_, hsound⟩
  | recheckEndStopped htodo _ => exact ⟨_, h.recheckEndStopped htodo⟩
  | recheckEnd htodo _ => exact ⟨_, h.recheckEnd htodo⟩
  | takeWorkers htodo => exact ⟨_, h.takeWorkers htodo⟩
  | reap htodo hended =>
    obtain ⟨workers, hsound⟩ := h.reap htodo hended
    exact ⟨_, hsound⟩
  | markStopped htodo => exact ⟨_, h.markStopped htodo⟩
  -- The others neither take the lock nor touch the workers.
  | finish htodo =>
    refine ⟨e, h.pass htodo (.of_threads htodo rfl rfl) (fun _ => id) rfl rfl fun hstopped => ?_⟩
    by_cases hstarting : l.state = .starting <;> simp_all
  | awaitEndStopped htodo _ =>
    exact ⟨e, h.pass htodo (.of_threads htodo rfl rfl) (fun _ ⟨hnone, hrest⟩ => hnone ▸ hrest) rfl rfl id⟩
  | awaitEnd htodo _ =>
    exact ⟨e, h.pass htodo (.of_threads htodo rfl rfl) (fun _ ⟨hnone, hrest⟩ => ⟨hnone, rfl, hrest⟩) rfl rfl id⟩
  | markStopping htodo _ => exact ⟨e, h.pass htodo (.of_threads htodo rfl rfl) (fun _ => id) rfl rfl nofun⟩
  | markStoppingIdle htodo _ | lockJoin htodo _ | fetchMailbox htodo | raiseShutdown htodo | closePackets htodo
  | unlockJoin htodo | work htodo => exact ⟨e, h.pass htodo (.of_threads htodo rfl rfl) (fun _ => id) rfl rfl id⟩

end Sound

end Lifecycle

end MediaChannels
