import MediaChannels.Proofs.Session.Agenda

/-!
# How the state of a session changes

A session is meant to go from being stopped to starting, running, stopping and back, and back from starting when no
encoder is found. The state is overwritten without a look at it by whoever has waited for the workers, and by a start
that has to be given up.

* `SessionMove`: the changes that are meant, with what makes them.
* `Lifecycle.Watched`: the invariant behind it. Unless a session that starts or runs is still being checked or its
  workers are yet to be spawned, one of its workers, or the start that could not spawn one, is going to stop it. So
  whoever has waited for all workers finds that it stops (`Watched.move`).
* `SessionHistory.StartsApart`: no session is started while an earlier start has still to enter the running state.
* `state_moves`: all changes are as meant, except that a start that is given up can end a session that runs, and this
  only when starts are not apart.
* `cancel_ends_running`: then it does.
-/

namespace MediaChannels

/-! ## The changes that are meant -/

/-- The changes of the state that a session is meant to go through, and what makes them. -/
inductive SessionMove : SessionOp → SessionState → SessionState → Prop where
  | begin : SessionMove .begin .stopped .starting
  | finish : SessionMove .finish .starting .running
  | stopStart : SessionMove .markStopping .starting .stopping
  | stopRun : SessionMove .markStopping .running .stopping
  | markStopped : SessionMove .markStopped .stopping .stopped
  /-- The session was stopped while encoders were probed. -/
  | recheck : SessionMove .recheck .stopping .stopped
  /-- The same, and no encoder was found. -/
  | cancelStopping : SessionMove .cancel .stopping .stopped
  /-- No encoder was found. -/
  | cancel : SessionMove .cancel .starting .stopped

/-! ## Somebody is going to stop the session -/

/-- A thread that is going to stop the session, at the latest after its work. -/
def SessionThread.WillStop (th : SessionThread) : Prop :=
  th.todo = Lifecycle.workerOps ∨ ∃ rest, th.todo = .markStopping :: rest

namespace SessionThread.WillStop

variable {th : SessionThread}

theorem busy (h : th.WillStop) : th.todo ≠ [] := by
  rcases h with h | ⟨_, h⟩ <;> simp [h, Lifecycle.workerOps]

/-- A worker that has done its work is going to stop the session. -/
theorem of_work {rest : List SessionOp} (h : th.WillStop) (htodo : th.todo = .work :: rest) :
    { th with todo := rest }.WillStop := by
  rcases h with h | ⟨_, h⟩
  · rw [htodo] at h
    cases h
    exact .inr ⟨[], rfl⟩
  · rw [htodo] at h
    cases h

theorem op_eq {op : SessionOp} {rest : List SessionOp} (h : th.WillStop) (htodo : th.todo = op :: rest) :
    op = .work ∨ op = .markStopping := by
  rcases h with h | ⟨_, h⟩
  · rw [htodo] at h
    cases h
    exact .inl rfl
  · rw [htodo] at h
    cases h
    exact .inr rfl

end SessionThread.WillStop

/-- The threads of whom one is going to stop the session: its workers, or the holder of the launch lock. -/
def Errand.Watches (l : Lifecycle) (w : Nat) : Errand → Prop
  | launch _ fresh => w ∈ l.workers ∨ fresh = some w ∨ l.launching = some w
  | check => False
  | collect workers => w ∈ workers

namespace Lifecycle

variable {l l' : Lifecycle} {office office' : Office} {outcome : Except Error Unit} {e e' : Errand} {t w : Nat}
  {op : SessionOp} {rest : List SessionOp} {th : SessionThread}

/-- The launch lock is respected, and somebody is going to stop a session that starts or runs, unless it is still being
checked or has workers that are yet to be spawned. -/
structure Watched (l : Lifecycle) (e : Errand) : Prop extends l.Sound e where
  watched : l.state = .starting ∨ l.state = .running →
    e = .check ∨ e.roles ≠ [] ∨ ∃ w, e.Watches l w ∧ (l.thread w).WillStop

namespace Watched

theorem of_inactive (hs : l.Sound e) (hstate : ¬(l.state = .starting ∨ l.state = .running)) : l.Watched e :=
  ⟨hs, fun h => absurd h hstate⟩

theorem of_check (hs : l.Sound .check) : l.Watched .check := ⟨hs, fun _ => .inl rfl⟩

theorem of_roles (hs : l.Sound e) (hroles : e.roles ≠ []) : l.Watched e := ⟨hs, fun _ => .inr (.inl hroles)⟩

theorem of_watches (hs : l.Sound e) (hw : e.Watches l w) (hstop : (l.thread w).WillStop) : l.Watched e :=
  ⟨hs, fun _ => .inr (.inr ⟨w, hw, hstop⟩)⟩

/-- A thread that is not going to stop the session changes nothing about who is. -/
theorem goOn (h : l.Watched e) (hs : l'.Sound e') (hm : Moves l t th l') (htodo : (l.thread t).todo = op :: rest)
    (hop : op ≠ .work ∧ op ≠ .markStopping)
    (hstate : l'.state = .starting ∨ l'.state = .running → l.state = .starting ∨ l.state = .running)
    (hcheck : e = .check → e' = .check) (hroles : e.roles ≠ [] → e'.roles ≠ [])
    (hwatches : ∀ w, w ≠ t → (l.thread w).WillStop → e.Watches l w → e'.Watches l' w) : l'.Watched e' := by
  refine ⟨hs, fun hactive => ?_⟩
  rcases h.watched (hstate hactive) with he | he | ⟨w, hw, hstop⟩
  · exact .inl (hcheck he)
  · exact .inr (.inl (hroles he))
  · have hne : w ≠ t := by
      rintro rfl
      rcases hstop.op_eq htodo with hwork | hmark
      · exact hop.1 hwork
      · exact hop.2 hmark
    refine .inr (.inr ⟨w, hwatches w hne hstop hw, ?_⟩)
    rwa [hm.others w hne]

/-- Nor does one that goes past the lock and the workers. -/
theorem pass (h : l.Watched e) (htodo : (l.thread t).todo = op :: rest) (hop : op ≠ .work ∧ op ≠ .markStopping)
    (hm : Moves l t th l') (hplan : ∀ held, Plan (op :: rest) held → Plan th.todo held)
    (hlaunching : l'.launching = l.launching) (hworkers : l'.workers = l.workers)
    (hstopped : l'.state = .stopped → l.state = .stopped)
    (hstate : l'.state = .starting ∨ l'.state = .running → l.state = .starting ∨ l.state = .running) :
    l'.Watched e := by
  refine h.goOn (h.toSound.pass htodo hm hplan hlaunching hworkers hstopped) hm htodo hop hstate id id ?_
  intro w _ _ hw
  cases e with
  | launch roles fresh => rwa [Errand.Watches, hworkers, hlaunching]
  | check => exact hw
  | collect workers => exact hw

theorem call (h : l.Watched e) (c : SessionCall) : (l.call c.ops).2.Watched e := by
  refine ⟨h.toSound.call c, fun hactive => ?_⟩
  rcases h.watched hactive with he | he | ⟨w, hw, hstop⟩
  · exact .inl he
  · exact .inr (.inl he)
  · refine .inr (.inr ⟨w, ?_, ?_⟩)
    · cases e <;> exact hw
    · rwa [Lifecycle.call, thread_add_of_todo hstop.busy]

/-- **Every step keeps somebody who is going to stop the session.** -/
theorem step (h : l.Watched e) (hstep : l.Step office t outcome l' office') : ∃ e', l'.Watched e' := by
  have hs := h.toSound
  cases hstep with
  -- While the session is being checked nobody has to be there, and then there are workers to be spawned.
  | begin htodo hstate _ => exact ⟨_, of_check (hs.begin htodo hstate)⟩
  | probeFound htodo => exact ⟨_, of_check (hs.probeFound htodo)⟩
  | probeFailed htodo => exact ⟨_, of_check (hs.probeFailed htodo)⟩
  | recheck htodo hstate => exact ⟨_, of_roles (hs.recheck htodo hstate) (by simp [Errand.roles])⟩
  -- A worker that is spawned will stop the session, and so does who cannot spawn one.
  | spawn htodo =>
    obtain ⟨roles, hs'⟩ := hs.spawned htodo
    refine ⟨_, of_watches hs' (.inr (.inl rfl)) (.inl ?_)⟩
    have hne : t ≠ l.threads.size := Nat.ne_of_lt (lt_size_of_todo (by simp [htodo]))
    rw [proceed, thread_setThread_of_ne hne.symm, thread_add_self]
  | spawnFailed htodo =>
    obtain ⟨_, hheld, _⟩ := hs.plan_of_todo htodo
    refine ⟨_, of_watches (hs.spawnFailed htodo) (.inr (.inr (of_errandOf hheld).1))
      (.inr ⟨.unlockLaunch :: stopOps ++ joinOps, ?_⟩)⟩
    rw [reject, thread_setThread_self (by simp [htodo])]
    rfl
  | cancel htodo => exact ⟨_, of_inactive (hs.cancel htodo) (by simp)⟩
  | recheckStopped htodo _ => exact ⟨_, of_inactive (hs.recheckStopped htodo) (by simp)⟩
  | markStopped htodo => exact ⟨_, of_inactive (hs.markStopped htodo) (by simp)⟩
  -- Where the lock or the list of workers is passed on, so are the workers that are registered.
  | lockLaunch htodo hfree =>
    obtain rfl := hs.idle hfree
    refine ⟨_, h.goOn (hs.lockLaunch htodo hfree) (.of_threads htodo rfl rfl) htodo (by simp) id id id ?_⟩
    rintro w _ _ (hw | hw | hw)
    · exact .inl hw
    · cases hw
    · cases hfree.symm.trans hw
  | unlockLaunch htodo =>
    obtain ⟨hholder, rfl⟩ := of_errandOf (hs.plan_of_todo htodo).1
    refine ⟨_, h.goOn (hs.unlockLaunch htodo) (.of_threads htodo rfl rfl) htodo (by simp) id id id ?_⟩
    rintro w hne _ (hw | hw | hw)
    · exact .inl hw
    · cases hw
    · exact absurd (Option.some.inj (hw.symm.trans hholder)) hne
  | register htodo =>
    obtain ⟨roles, hheld, hrest⟩ := hs.plan_of_todo htodo
    obtain ⟨hholder, rfl⟩ := of_errandOf hheld
    obtain ⟨roles', hs'⟩ := hs.register htodo
    obtain rfl : roles' = roles := by simpa using hs'.errand_eq (.of_threads htodo rfl rfl) hholder hrest
    refine ⟨_, h.goOn hs' (.of_threads htodo rfl rfl) htodo (by simp) id nofun id ?_⟩
    rintro v hne _ (hv | hv | hv)
    · exact .inl (List.mem_append_left _ hv)
    · cases hv
      exact .inl (by simp)
    · exact .inr (.inr hv)
  | takeWorkers htodo =>
    obtain ⟨hholder, rfl⟩ := of_errandOf (hs.plan_of_todo htodo).1
    refine ⟨_, h.goOn (hs.takeWorkers htodo) (.of_threads htodo rfl rfl) htodo (by simp) id nofun
      (fun hroles => (hroles rfl).elim) ?_⟩
    rintro w hne _ (hw | hw | hw)
    · exact hw
    · cases hw
    · exact absurd (Option.some.inj (hw.symm.trans hholder)) hne
  | reap htodo hended =>
    obtain ⟨workers, hheld, hrest⟩ := hs.plan_of_todo htodo
    obtain ⟨hholder, rfl⟩ := of_errandOf hheld
    obtain ⟨workers', hs'⟩ := hs.reap htodo hended
    obtain rfl : workers' = workers := by simpa using hs'.errand_eq (.of_threads htodo rfl rfl) hholder hrest
    refine ⟨_, h.goOn hs' (.of_threads htodo rfl rfl) htodo (by simp) id nofun (fun hroles => (hroles rfl).elim) ?_⟩
    rintro v _ hstop hv
    rcases List.mem_cons.mp hv with rfl | hv
    · exact absurd (isAlive_eq_false_iff.mp hended) hstop.busy
    · exact hv
  | beginRefused htodo _ =>
    obtain ⟨_, rfl⟩ := of_errandOf (hs.plan_of_todo htodo).1
    exact ⟨_, h.goOn (hs.beginRefused htodo) (.of_threads htodo rfl rfl) htodo (by simp) id id id fun _ _ _ => id⟩
  | recheckEndStopped htodo _ =>
    obtain ⟨_, rfl⟩ := of_errandOf (hs.plan_of_todo htodo).1
    exact ⟨_, h.goOn (hs.recheckEndStopped htodo) (.of_threads htodo rfl rfl) htodo (by simp) id id id fun _ _ _ => id⟩
  | recheckEnd htodo _ =>
    obtain ⟨_, rfl⟩ := of_errandOf (hs.plan_of_todo htodo).1
    exact ⟨_, h.goOn (hs.recheckEnd htodo) (.of_threads htodo rfl rfl) htodo (by simp) id id id fun _ _ _ => id⟩
  -- The others neither take the lock nor touch the workers.
  | markStopping htodo _ =>
    exact ⟨e, of_inactive (hs.pass htodo (.of_threads htodo rfl rfl) (fun _ => id) rfl rfl nofun) (by simp)⟩
  | markStoppingIdle htodo hstate =>
    exact ⟨e, of_inactive (hs.pass htodo (.of_threads htodo rfl rfl) (fun _ => id) rfl rfl id) hstate⟩
  | work htodo =>
    rename_i rest
    have hm : Moves l t { l.thread t with todo := rest } (l.proceed t (l.thread t) rest) := .of_threads htodo rfl rfl
    refine ⟨e, hs.pass htodo hm (fun _ => id) rfl rfl id, fun hactive => ?_⟩
    rcases h.watched hactive with he | he | ⟨w, hw, hstop⟩
    · exact .inl he
    · exact .inr (.inl he)
    refine .inr (.inr ⟨w, by cases e <;> exact hw, ?_⟩)
    by_cases hwt : w = t
    · rw [hwt, hm.thread_eq]
      exact hstop.of_work (hwt ▸ htodo)
    · rwa [hm.others w hwt]
  | finish htodo =>
    refine ⟨e, h.pass htodo (by simp) (.of_threads htodo rfl rfl) (fun _ => id) rfl rfl ?_ ?_⟩ <;>
      by_cases hstarting : l.state = .starting <;> simp_all
  | awaitEndStopped htodo _ =>
    exact ⟨e, h.pass htodo (by simp) (.of_threads htodo rfl rfl) (fun _ ⟨hnone, hrest⟩ => hnone ▸ hrest) rfl rfl id id⟩
  | awaitEnd htodo _ =>
    exact ⟨e, h.pass htodo (by simp) (.of_threads htodo rfl rfl) (fun _ ⟨hnone, hrest⟩ => ⟨hnone, rfl, hrest⟩) rfl rfl
      id id⟩
  | lockJoin htodo _ | fetchMailbox htodo | raiseShutdown htodo | closePackets htodo | unlockJoin htodo =>
    exact ⟨e, h.pass htodo (by simp) (.of_threads htodo rfl rfl) (fun _ => id) rfl rfl id id⟩

/-! ## What a step does to the state -/

/-- **A step leaves the state as it is, or changes it as is meant, or is that of a start that is given up while the
session runs.** Whoever has waited for all workers finds that the session stops. -/
theorem move (h : l.Watched e) (hstep : l.Step office t outcome l' office')
    (htodo : (l.thread t).todo = op :: rest) :
    l'.state = l.state ∨ SessionMove op l.state l'.state ∨
      (op = .cancel ∨ op = .recheck) ∧ l.state = .running ∧ l'.state = .stopped := by
  have hop : ∀ {op' rest'}, (l.thread t).todo = op' :: rest' → op' = op := fun htodo' =>
    (List.cons.inj (htodo'.symm.trans htodo)).1
  cases hstep with
  | begin htodo' hstate _ =>
    obtain rfl := hop htodo'
    rw [hstate]
    exact .inr (.inl .begin)
  | cancel htodo' =>
    obtain rfl := hop htodo'
    cases hstate : l.state with
    | stopped => exact .inl rfl
    | starting => exact .inr (.inl .cancel)
    | running => exact .inr (.inr ⟨.inl rfl, rfl, rfl⟩)
    | stopping => exact .inr (.inl .cancelStopping)
  | recheckStopped htodo' hnot =>
    obtain rfl := hop htodo'
    cases hstate : l.state with
    | stopped => exact .inl rfl
    | starting => exact absurd hstate hnot
    | running => exact .inr (.inr ⟨.inr rfl, rfl, rfl⟩)
    | stopping => exact .inr (.inl .recheck)
  | finish htodo' =>
    obtain rfl := hop htodo'
    by_cases hstate : l.state = .starting
    · simp only [hstate, ↓reduceIte]
      exact .inr (.inl .finish)
    · exact .inl (if_neg hstate)
  | markStopping htodo' hstate =>
    obtain rfl := hop htodo'
    rcases hstate with hstate | hstate <;> rw [hstate]
    · exact .inr (.inl .stopStart)
    · exact .inr (.inl .stopRun)
  | markStopped htodo' =>
    obtain rfl := hop htodo'
    obtain ⟨_, rfl⟩ := of_errandOf (h.plan_of_todo htodo').1
    -- Nobody is left who could be going to stop the session, so it neither starts nor runs.
    have hinactive : ¬(l.state = .starting ∨ l.state = .running) := by
      intro hactive
      rcases h.watched hactive with he | he | ⟨w, hw, _⟩
      · cases he
      · exact he rfl
      · cases hw
    cases hstate : l.state with
    | stopped => exact .inl rfl
    | stopping => exact .inr (.inl .markStopped)
    | starting => exact absurd (.inl hstate) hinactive
    | running => exact absurd (.inr hstate) hinactive
  | _ => exact .inl rfl

end Watched

/-- Only a start that has spawned its workers makes a session run. -/
theorem Step.state_running (h : l.Step office t outcome l' office') (hstate : l'.state = .running) :
    l.state = .running ∨ ∃ rest, (l.thread t).todo = .finish :: rest := by
  cases h with
  | finish htodo => exact .inr ⟨_, htodo⟩
  | begin htodo _ _ | cancel htodo | recheckStopped htodo _ | markStopping htodo _ | markStopped htodo => cases hstate
  | _ => exact .inl hstate

theorem probeError_eq (err : Error) : ∃ reason, probeError err = .probeFailed reason := by
  cases err <;> exact ⟨_, rfl⟩

/-- A thread that is going to put the session back, without a look at its state, has failed to find an encoder. -/
def Cancelled (l : Lifecycle) : Prop :=
  ∀ t, .cancel ∈ (l.thread t).todo → ∃ reason, (l.thread t).answer = .error (.probeFailed reason)

theorem Cancelled.moves (h : l.Cancelled) (hm : Moves l t th l')
    (hth : .cancel ∈ th.todo → ∃ reason, th.answer = .error (.probeFailed reason)) : l'.Cancelled := by
  intro u hmem
  by_cases hu : u = t
  · rw [hu, hm.thread_eq] at hmem ⊢
    exact hth hmem
  · rw [hm.others u hu] at hmem ⊢
    exact h u hmem

theorem Cancelled.add (h : l.Cancelled) (hth : .cancel ∉ th.todo) : (l.add th).2.Cancelled := by
  intro u hmem
  by_cases hu : u = l.threads.size
  · rw [hu, thread_add_self] at hmem
    exact absurd hmem hth
  · rw [thread_add_of_ne hu] at hmem ⊢
    exact h u hmem

theorem Cancelled.step (h : l.Cancelled) (hs : l.Sound e) (hstep : l.Step office t outcome l' office') :
    l'.Cancelled := by
  cases hstep with
  | probeFailed htodo =>
    obtain ⟨reason, herr⟩ := probeError_eq _
    exact h.moves (.of_threads htodo rfl rfl) fun _ => ⟨reason, congrArg Except.error herr⟩
  | spawn htodo =>
    refine (h.add (by simp [workerOps, stopOps])).moves (.of_threads_add htodo rfl rfl) ?_
    intro hmem
    exact h t (by simpa [htodo] using hmem)
  | beginRefused htodo _ | recheckStopped htodo _ =>
    obtain ⟨_, rfl⟩ := hs.plan_of_todo htodo
    exact h.moves (.of_threads htodo rfl rfl) (by simp)
  | spawnFailed htodo => exact h.moves (.of_threads htodo rfl rfl) (by simp [stopOps, joinOps])
  | lockLaunch htodo _ | unlockLaunch htodo | begin htodo _ _ | probeFound htodo | cancel htodo | recheck htodo _
  | register htodo | finish htodo | markStopping htodo _ | markStoppingIdle htodo _ | fetchMailbox htodo
  | raiseShutdown htodo | closePackets htodo | lockJoin htodo _ | unlockJoin htodo | awaitEndStopped htodo _
  | awaitEnd htodo _ | recheckEndStopped htodo _ | recheckEnd htodo _ | takeWorkers htodo | reap htodo _
  | markStopped htodo | work htodo =>
    refine h.moves (.of_threads htodo rfl rfl) ?_
    intro hmem
    exact h t (by simp_all)

/-! ## Checking while nobody makes the session run -/

/-- While it is being checked whether the session can be started, it does not run, and nobody is going to make it. -/
def Settled (l : Lifecycle) : Prop :=
  ∀ t, ∀ op ∈ (l.thread t).todo, op.isProbing → l.state ≠ .running ∧ ∀ u, .finish ∉ (l.thread u).todo

/-- Only a start that goes on to spawn workers is going to make the session run. -/
theorem Step.finish_not_mem (h : l.Step office t outcome l' office') (hrunning : l.state ≠ .running)
    (hnone : ∀ u, .finish ∉ (l.thread u).todo) (hop : ∀ rest, (l.thread t).todo ≠ .recheck :: rest) :
    l'.state ≠ .running ∧ ∀ u, .finish ∉ (l'.thread u).todo := by
  constructor
  · intro hstate
    rcases h.state_running hstate with hstate | ⟨rest, htodo⟩
    · exact hrunning hstate
    · exact hnone t (by simp [htodo])
  · intro u hmem
    cases h.of_mem_todo hmem with
    | other _ hmem => exact hnone u hmem
    | rest _ htodo hmem => exact hnone t (by simp [htodo, hmem])
    | @added op rest _ htodo hadds =>
      cases op <;> first | exact hop rest htodo | exact hadds.elim
    | worker _ hmem => simp [workerOps, stopOps] at hmem

theorem Step.state_begin (h : l.Step office t outcome l' office') (htodo : (l.thread t).todo = .begin :: rest)
    (hstate : l.state = .stopped) : l'.state = .starting := by
  have hstep := step_eq_some_iff.mpr h
  simp only [step, htodo, hstate, ne_eq, not_true_eq_false, ↓reduceIte, Option.some.injEq, Prod.mk.injEq] at hstep
  rw [← hstep.1]

theorem Settled.add (h : l.Settled) (hth : ∀ op ∈ th.todo, op ≠ .finish ∧ op.isProbing = false) :
    (l.add th).2.Settled := by
  intro u op hmem hop
  have hold : op ∈ (l.thread u).todo := by
    by_cases hu : u = l.threads.size
    · rw [hu, thread_add_self] at hmem
      simp [(hth op hmem).2] at hop
    · rwa [thread_add_of_ne hu] at hmem
  obtain ⟨hrunning, hnone⟩ := h u op hold hop
  refine ⟨hrunning, fun v hmem => ?_⟩
  by_cases hv : v = l.threads.size
  · rw [hv, thread_add_self] at hmem
    exact (hth .finish hmem).1 rfl
  · rw [thread_add_of_ne hv] at hmem
    exact hnone v hmem

/-- So it stays, if nobody is going to when the check begins. -/
theorem Settled.step (h : l.Settled) (hs : l.Sound e) (hstep : l.Step office t outcome l' office')
    (hbegin : l.state = .stopped → l'.state = .starting → ∀ u, .finish ∉ (l.thread u).todo) : l'.Settled := by
  intro u op' hmem hop'
  cases hstep.of_mem_todo hmem with
  | other hne hmem =>
    obtain ⟨hrunning, hnone⟩ := h u op' hmem hop'
    refine hstep.finish_not_mem hrunning hnone fun rest htodo => hne ?_
    exact hs.probing_unique hmem (by simp [htodo] : .recheck ∈ (l.thread t).todo) hop' rfl
  | rest hu htodo hmem =>
    obtain ⟨hrunning, hnone⟩ := h t op' (by simp [htodo, hmem]) hop'
    refine hstep.finish_not_mem hrunning hnone fun rest' htodo' => ?_
    obtain ⟨_, rfl⟩ := hs.plan_of_todo htodo'
    rw [htodo] at htodo'
    cases htodo'
    cases hmem
  | @added op rest hu htodo hadds =>
    cases op with
    | begin =>
      cases op' <;> cases hop' <;> first | exact hadds.elim | skip
      have hstate : l.state = .stopped := hadds
      refine hstep.finish_not_mem (by simp [hstate]) (hbegin hstate (hstep.state_begin htodo hstate)) ?_
      simp [htodo]
    | probe =>
      obtain ⟨hrunning, hnone⟩ := h t .probe (by simp [htodo]) rfl
      exact hstep.finish_not_mem hrunning hnone (by simp [htodo])
    | _ => cases op' <;> cases hop' <;> exact hadds.elim
  | worker _ hmem =>
    simp only [workerOps, stopOps, List.mem_cons, List.not_mem_nil, or_false] at hmem
    rcases hmem with rfl | rfl <;> cases hop'

end Lifecycle

/-! ## Starts that are apart -/

namespace SessionHistory

variable {h : SessionHistory} {apart : Prop}

/-- No turn starts the session while an earlier start has spawned its workers, and has still to enter the running
state. -/
def StartsApart (h : SessionHistory) : List SessionTurn → Prop
  | [] => True
  | next :: turns =>
    (h.life.state = .stopped → (h.turn next).life.state = .starting → ∀ t, .finish ∉ (h.life.thread t).todo) ∧
      StartsApart (h.turn next) turns

/-- What is known of a session at all times; `apart` says whether starts have been so far. -/
structure Orderly (h : SessionHistory) (apart : Prop) : Prop where
  life : ∃ e, h.life.Watched e
  cancelled : h.life.Cancelled
  settled : apart → h.life.Settled

namespace Orderly

theorem fresh (kind : ChannelKind) (mailbox : Nat) (office : Office) :
    (SessionHistory.fresh kind mailbox office).Orderly True :=
  ⟨⟨_, .of_inactive (.fresh kind mailbox) (by simp [SessionHistory.fresh])⟩, nofun, nofun⟩

theorem call (hh : h.Orderly apart) (c : SessionCall) : (h.turn (.call c)).Orderly apart := by
  obtain ⟨e, hlife⟩ := hh.life
  have hops : ∀ op ∈ c.ops, op ≠ .finish ∧ op.isProbing = false := by cases c <;> decide
  refine ⟨⟨e, hlife.call c⟩, hh.cancelled.add ?_, fun happart => ?_⟩
  · intro hmem
    cases (hops _ hmem).2
  · have hsettled : (h.life.add { todo := c.ops }).2.Settled := (hh.settled happart).add hops
    exact hsettled

theorem step (hh : h.Orderly apart) (t : Nat) (outcome : Except Error Unit) :
    (h.turn (.step t outcome)).Orderly (apart ∧ (h.life.state = .stopped →
      (h.turn (.step t outcome)).life.state = .starting → ∀ u, .finish ∉ (h.life.thread u).todo)) := by
  obtain ⟨e, hlife⟩ := hh.life
  rw [turn]
  cases hstep : h.life.step h.office t outcome with
  | none => exact ⟨hh.life, hh.cancelled, fun ⟨happart, _⟩ => hh.settled happart⟩
  | some next =>
    obtain ⟨life, office⟩ := next
    have hrule := Lifecycle.step_eq_some_iff.mp hstep
    exact ⟨hlife.step hrule, hh.cancelled.step hlife.toSound hrule,
      fun ⟨happart, hbegin⟩ => (hh.settled happart).step hlife.toSound hrule hbegin⟩

theorem turn (hh : h.Orderly apart) : ∀ next, (h.turn next).Orderly (apart ∧ (h.life.state = .stopped →
    (h.turn next).life.state = .starting → ∀ u, .finish ∉ (h.life.thread u).todo))
  | .call c => ⟨(hh.call c).life, (hh.call c).cancelled, fun happart => (hh.call c).settled happart.1⟩
  | .mail _ => ⟨hh.life, hh.cancelled, fun happart => hh.settled happart.1⟩
  | .step t outcome => hh.step t outcome

theorem run (hh : h.Orderly apart) (turns : List SessionTurn) :
    (h.run turns).Orderly (apart ∧ h.StartsApart turns) := by
  induction turns generalizing h apart with
  | nil => exact ⟨hh.life, hh.cancelled, fun happart => hh.settled happart.1⟩
  | cons next turns ih =>
    have hrun := ih (hh.turn next)
    exact ⟨hrun.life, hrun.cancelled, fun ⟨happart, hbegin, hlater⟩ => hrun.settled ⟨⟨happart, hbegin⟩, hlater⟩⟩

end Orderly

end SessionHistory

/-- **How the state of a session changes.** Whatever turns a session has taken, the next one leaves the state as it is,
or it is a step that changes the state in one of the ways that are meant; a start goes back from the starting state only
when its probe has failed. The one exception is that a start that is given up can stop a session that runs, and only
when starts were not apart. -/
theorem state_moves (kind : ChannelKind) (mailbox : Nat) (office : Office) (turns : List SessionTurn)
    (next : SessionTurn) :
    let start := SessionHistory.fresh kind mailbox office
    let h := start.run turns
    let h' := h.turn next
    h'.life.state = h.life.state ∨
      ∃ t outcome op rest, next = .step t outcome ∧ (h.life.thread t).todo = op :: rest ∧
        (op = .cancel → ∃ reason, (h.life.thread t).answer = .error (.probeFailed reason)) ∧
        (SessionMove op h.life.state h'.life.state ∨
          (op = .cancel ∨ op = .recheck) ∧ h.life.state = .running ∧ h'.life.state = .stopped ∧
            ¬ start.StartsApart turns) := by
  intro start h h'
  have hh : h.Orderly (True ∧ start.StartsApart turns) := .run (.fresh kind mailbox office) turns
  obtain ⟨e, hlife⟩ := hh.life
  cases next with
  | call c => exact .inl rfl
  | mail office => exact .inl rfl
  | step t outcome =>
    cases hstep : h.life.step h.office t outcome with
    | none => exact .inl (by simp only [h', SessionHistory.turn, hstep])
    | some after =>
      obtain ⟨life, office⟩ := after
      have hrule := Lifecycle.step_eq_some_iff.mp hstep
      have hstate : h'.life.state = life.state := by simp only [h', SessionHistory.turn, hstep]
      cases htodo : (h.life.thread t).todo with
      | nil => simp [Lifecycle.step_of_finished _ htodo] at hstep
      | cons op rest =>
        rw [hstate]
        rcases hlife.move hrule htodo with hsame | hmove | ⟨hop, hrunning, hstopped⟩
        · exact .inl hsame
        · exact .inr ⟨t, outcome, op, rest, rfl, htodo, fun hop => hh.cancelled t (by simp [htodo, hop]), .inl hmove⟩
        · refine .inr ⟨t, outcome, op, rest, rfl, htodo, fun hop => hh.cancelled t (by simp [htodo, hop]),
            .inr ⟨hop, hrunning, hstopped, fun happart => ?_⟩⟩
          have hprobing : op.isProbing := by rcases hop with rfl | rfl <;> rfl
          exact (hh.settled ⟨trivial, happart⟩ t op (by simp [htodo]) hprobing).1 hrunning

/-- A session is started and stopped, and its end is waited for, while the first start has still to enter the running
state. It does so when the next start has begun, whose probe then fails. -/
def SessionTurn.lateFinish : List SessionTurn :=
  [.call .start] ++ List.replicate 9 (.step 0 (.ok ())) ++ [.call .stop] ++ List.replicate 4 (.step 3 (.ok ())) ++
    [1, 1, 2, 2].map (.step · (.ok ())) ++ [.call .join] ++ List.replicate 10 (.step 4 (.ok ())) ++
    [.call .start] ++ List.replicate 2 (.step 5 (.ok ())) ++ [.step 0 (.ok ()), .step 5 (.error (.probeFailed "none"))]

/-- **A start that finds no encoder can stop a session that runs.** -/
theorem cancel_ends_running :
    let h := (SessionHistory.fresh .audio 0 Office.empty.addMailbox.2).run SessionTurn.lateFinish
    (h.life.thread 5).todo = [.cancel] ∧ h.life.state = .running ∧
      (h.turn (.step 5 (.ok ()))).life.state = .stopped := by
  decide +kernel

end MediaChannels
