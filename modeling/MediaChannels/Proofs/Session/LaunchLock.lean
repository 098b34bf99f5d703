import MediaChannels.Proofs.Session.History

/-!
# What the holder of the launch lock is about

Workers are spawned and waited for by the thread that holds the launch lock. What it still has to do says which workers
can be alive in the meantime.

* `Errand`: the points at which the holder can be, and `Errand.Admits`, the workers that can be alive then.
* `Plan`: who holds the lock on which errand, by what there is to do.
* `Lifecycle.Sound`: the invariant. A stopped session has no workers, and no role has two.
* `Sound.move`: what a thread has to show that goes on. `Sound.pass`, `Sound.carryOn`, `Sound.goOn`, `Sound.spawn`: the
  same for a thread that keeps its errand, for the holder of the lock, and for one that spawns a worker.
-/

namespace MediaChannels

/-! ## Errands -/

/-- What the holder of the launch lock is about. -/
inductive Errand where
  /-- It has to spawn workers of these roles, and to register the one that it has just spawned. -/
  | launch (roles : List WorkerRole) (fresh : Option Nat)
  /-- It finds out whether the session can be started. -/
  | check
  /-- It waits for these workers. -/
  | collect (workers : List Nat)

namespace Errand

/-- Nothing in particular. -/
abbrev idle : Errand := launch [] none

/-- The roles of the workers that have to be spawned. -/
def roles : Errand → List WorkerRole
  | launch roles _ => roles
  | check | collect _ => []

/-- Whether a worker can be alive during an errand, when these workers are registered. -/
def Admits (registered : List Nat) (role : WorkerRole) (w : Nat) : Errand → Prop
  | launch roles fresh => (w ∈ registered ∨ fresh = some w) ∧ role ∉ roles
  | check => False
  | collect workers => w ∈ workers

end Errand

/-! ## Plans -/

/-- Finding out whether a session can be started. -/
def SessionOp.isChecking : SessionOp → Bool
  | .begin | .probe | .cancel | .recheck => true
  | _ => false

/-- Whether a thread that has these things to do holds the launch lock, and on which errand. -/
def Plan : List SessionOp → Option Errand → Prop
  | [], held => held = none
  | op :: ops, held =>
    match op with
    | .lockLaunch => held = none ∧ Plan ops (some .idle)
    | .awaitEnd => held = none ∧ Plan ops none
    | .unlockLaunch | .recheckEnd | .takeWorkers => held = some .idle ∧ Plan ops none
    | .begin => held = some .idle ∧ ops = []
    | .probe | .cancel | .recheck => held = some .check ∧ ops = []
    | .spawn role =>
      ∃ roles, held = some (.launch (role :: roles) none) ∧ role ∉ roles ∧ Plan ops (some (.launch roles none)) ∧
        ∀ op ∈ ops, op.isChecking = false
    | .register w => ∃ roles, held = some (.launch roles (some w)) ∧ Plan ops (some (.launch roles none))
    | .reap w => ∃ workers, held = some (.collect (w :: workers)) ∧ Plan ops (some (.collect workers))
    | .markStopped => held = some (.collect []) ∧ Plan ops (some .idle)
    -- these are done with the lock or without it
    | .finish | .markStopping | .fetchMailbox | .raiseShutdown _ | .closePackets _ | .lockJoin | .unlockJoin | .work =>
      Plan ops held

namespace Plan

variable {ops : List SessionOp}

/-- Who calls a session does not hold the lock yet. -/
theorem call (c : SessionCall) : Plan c.ops none := by
  cases c with
  | start => exact ⟨rfl, rfl, rfl⟩
  | stop => exact rfl
  | join => exact ⟨rfl, rfl⟩

/-- Nor does a new worker. -/
theorem workerOps : Plan Lifecycle.workerOps none := rfl

/-- A start that has found an encoder spawns both workers. -/
theorem launch :
    Plan [.spawn .capture, .spawn .forward, .unlockLaunch, .finish] (some (.launch [.capture, .forward] none)) :=
  ⟨_, rfl, by decide, ⟨_, rfl, by decide, ⟨rfl, rfl⟩, by decide⟩, by decide⟩

/-- A list of workers is waited for one by one. -/
theorem collect (h : Plan ops (some (.collect []))) :
    ∀ workers, Plan (workers.map .reap ++ ops) (some (.collect workers))
  | [] => h
  | _ :: workers => ⟨workers, rfl, collect h workers⟩

end Plan

/-! ## The invariant -/

namespace Lifecycle

variable {l l' : Lifecycle} {e e' : Errand} {t : Nat} {op : SessionOp} {todo rest : List SessionOp}
  {th : SessionThread}

/-- The errand of a thread, if that of the holder of the launch lock is `e`. -/
def errandOf (l : Lifecycle) (e : Errand) (t : Nat) : Option Errand :=
  if l.launching = some t then some e else none

theorem errandOf_holder (h : l.launching = some t) : l.errandOf e t = some e := by simp [errandOf, h]

theorem errandOf_other (h : l.launching ≠ some t) : l.errandOf e t = none := by simp [errandOf, h]

theorem errandOf_congr (h : l'.launching = l.launching) : l'.errandOf e t = l.errandOf e t := by simp [errandOf, h]

/-- Only the holder of the lock has an errand. -/
theorem of_errandOf (h : l.errandOf e t = some e') : l.launching = some t ∧ e = e' := by
  simpa [errandOf] using h

theorem ne_holder {u : Nat} (h : l.launching = some t) (hu : u ≠ t) : l.launching ≠ some u := by
  rw [h]
  exact fun htu => hu (Option.some.inj htu).symm

/-- The holder of the launch lock is on errand `e`. The workers that are alive are those that the errand admits; a
stopped session has none, and no role has two. -/
structure Sound (l : Lifecycle) (e : Errand) : Prop where
  plan : ∀ t, Plan (l.thread t).todo (l.errandOf e t)
  idle : l.launching = none → e = .idle
  admits : ∀ role w, l.Works role w → e.Admits l.workers role w
  spawning : e.roles ≠ [] → l.state ≠ .stopped
  quiet : l.state = .stopped → ∀ role w, ¬ l.Works role w
  unique : ∀ role v w, l.Works role v → l.Works role w → v = w

namespace Sound

/-- A session that nobody has called yet. -/
theorem fresh (kind : ChannelKind) (mailbox : Nat) : Sound { kind, mailbox } .idle := by
  have hnone : ∀ role w, ¬ Works { kind, mailbox } role w := by
    intro role w hw
    simp [Works, isAlive, thread, default] at hw
  constructor
  · intro t
    rfl
  · intro _
    rfl
  · intro role w hw
    exact absurd hw (hnone role w)
  · intro hroles
    exact absurd rfl hroles
  · intro _
    exact hnone
  · intro role v w hv
    exact absurd hv (hnone role v)

theorem plan_of_todo (h : l.Sound e) (htodo : (l.thread t).todo = todo) : Plan todo (l.errandOf e t) := by
  rw [← htodo]
  exact h.plan t

/-- Somebody holds the lock as long as there is somebody: a thread that does not exist has no errand. -/
theorem errandOf_size (h : l.Sound e) : l.errandOf e l.threads.size = none := by
  have hplan := h.plan l.threads.size
  rwa [show l.thread l.threads.size = default by simp [thread]] at hplan

/-- One more thread that calls the session. -/
theorem call (h : l.Sound e) (c : SessionCall) : (l.call c.ops).2.Sound e := by
  refine ⟨?_, h.idle, ?_, h.spawning, ?_, ?_⟩
  · intro t
    rw [show (l.call c.ops).2.errandOf e t = l.errandOf e t from rfl]
    by_cases ht : t = l.threads.size
    · rw [ht, Lifecycle.call, thread_add_self, h.errandOf_size]
      exact Plan.call c
    · rw [Lifecycle.call, thread_add_of_ne ht]
      exact h.plan t
  · intro role w hw
    exact h.admits role w (works_call hw)
  · intro hstopped role w hw
    exact h.quiet hstopped role w (works_call hw)
  · intro role v w hv hw
    exact h.unique role v w (works_call hv) (works_call hw)

/-- What a thread has to show that goes on. -/
theorem move (h : l.Sound e) (hm : Moves l t th l') (hplan : Plan th.todo (l'.errandOf e' t))
    (hothers : ∀ u, u ≠ t → l'.errandOf e' u = l.errandOf e u) (hidle : l'.launching = none → e' = .idle)
    (hadmits : ∀ role w, l.Works role w → e.Admits l.workers role w → e'.Admits l'.workers role w)
    (hspawning : e'.roles ≠ [] → l'.state ≠ .stopped)
    (hquiet : l'.state = .stopped → l.state = .stopped ∨ ∀ role w, ¬ l.Works role w) : l'.Sound e' where
  plan u := by
    by_cases hu : u = t
    · rw [hu, hm.thread_eq]
      exact hplan
    · rw [hm.others u hu, hothers u hu]
      exact h.plan u
  idle := hidle
  admits role w hw := hadmits role w (hm.works hw) (h.admits role w (hm.works hw))
  spawning := hspawning
  quiet hstate role w hw := by
    rcases hquiet hstate with hstopped | hnone
    · exact h.quiet hstopped role w (hm.works hw)
    · exact hnone role w (hm.works hw)
  unique role v w hv hw := h.unique role v w (hm.works hv) (hm.works hw)

/-- A thread that keeps its errand, and does not stop the session, keeps the invariant. -/
theorem pass (h : l.Sound e) (htodo : (l.thread t).todo = op :: rest) (hm : Moves l t th l')
    (hplan : ∀ held, Plan (op :: rest) held → Plan th.todo held)
    (hlaunching : l'.launching = l.launching) (hworkers : l'.workers = l.workers)
    (hstate : l'.state = .stopped → l.state = .stopped) : l'.Sound e := by
  apply h.move hm
  · rw [errandOf_congr hlaunching]
    exact hplan _ (h.plan_of_todo htodo)
  · intro u _
    exact errandOf_congr hlaunching
  · intro hfree
    exact h.idle (hlaunching ▸ hfree)
  · intro role w _ hw
    rwa [hworkers]
  · intro hroles hstopped
    exact h.spawning hroles (hstate hstopped)
  · intro hstopped
    exact .inl (hstate hstopped)

/-- So does the holder of the launch lock when it goes on to an errand that admits every worker that is alive. -/
theorem carryOn {e₀ : Errand} (h : l.Sound e) (hm : Moves l t th l') (hheld : l.errandOf e t = some e₀)
    (hlaunching : l'.launching = l.launching) (hplan : Plan th.todo (some e'))
    (hadmits : ∀ role w, l.Works role w → e₀.Admits l.workers role w → e'.Admits l'.workers role w)
    (hspawning : e'.roles ≠ [] → l'.state ≠ .stopped)
    (hquiet : l'.state = .stopped → l.state = .stopped ∨ ∀ role w, ¬ e₀.Admits l.workers role w) : l'.Sound e' := by
  obtain ⟨hholder, rfl⟩ := of_errandOf hheld
  refine h.move hm ?_ ?_ ?_ hadmits hspawning ?_
  · rwa [errandOf_holder (hlaunching.trans hholder)]
  · intro u hu
    have hother := ne_holder hholder hu
    rw [errandOf_other hother, errandOf_other (hlaunching ▸ hother)]
  · intro hfree
    rw [hlaunching, hholder] at hfree
    cases hfree
  · intro hstopped
    rcases hquiet hstopped with hstopped | hnone
    · exact .inl hstopped
    · right
      intro role w hw
      exact hnone role w (h.admits role w hw)

/-- In particular when it leaves the state as it is, and has nothing to spawn. -/
theorem goOn {e₀ : Errand} (h : l.Sound e) (hm : Moves l t th l') (hheld : l.errandOf e t = some e₀)
    (hlaunching : l'.launching = l.launching) (hstate : l'.state = l.state) (hroles : e'.roles = [])
    (hplan : Plan th.todo (some e'))
    (hadmits : ∀ role w, l.Works role w → e₀.Admits l.workers role w → e'.Admits l'.workers role w) : l'.Sound e' := by
  apply h.carryOn hm hheld hlaunching hplan hadmits
  · intro hnot
    exact absurd hroles hnot
  · intro hstopped
    exact .inl (hstate.symm.trans hstopped)

/-- While it spawns a worker, those that are alive are the new one and registered ones of other roles. -/
theorem works_spawn {roles : List WorkerRole} {role role' : WorkerRole} {worker : SessionThread} {w : Nat}
    (h : l.Sound (.launch (role :: roles) none)) (hrole : worker.role = some role)
    (hm : Moves (l.add worker).2 t th l') (hw : l'.Works role' w) :
    (l.Works role' w ∧ w ∈ l.workers ∧ role' ∉ role :: roles) ∨ (w = l.threads.size ∧ role' = role) := by
  rcases works_add (hm.works hw) with hold | ⟨hw, hrole'⟩
  · obtain ⟨hmem | hmem, hnot⟩ := h.admits role' w hold
    · exact .inl ⟨hold, hmem, hnot⟩
    · cases hmem
  · exact .inr ⟨hw, Option.some.inj (hrole'.symm.trans hrole)⟩

/-- And so it does when it spawns a worker of a role that nobody has, and has yet to register it. -/
theorem spawn {roles : List WorkerRole} {role : WorkerRole} {worker : SessionThread} (h : l.Sound e)
    (hheld : l.errandOf e t = some (.launch (role :: roles) none)) (hrole : worker.role = some role)
    (hworker : Plan worker.todo none) (hm : Moves (l.add worker).2 t th l') (hlaunching : l'.launching = l.launching)
    (hworkers : l'.workers = l.workers) (hstate : l'.state = l.state) (hnew : role ∉ roles)
    (hplan : Plan th.todo (some (.launch roles (some l.threads.size)))) :
    l'.Sound (.launch roles (some l.threads.size)) := by
  obtain ⟨hholder, rfl⟩ := of_errandOf hheld
  have hnotstopped : l.state ≠ .stopped := h.spawning (List.cons_ne_nil role roles)
  constructor
  · intro u
    by_cases hu : u = t
    · rw [hu, hm.thread_eq, errandOf_holder (hlaunching.trans hholder)]
      exact hplan
    · have hother := ne_holder hholder hu
      rw [hm.others u hu, errandOf_other (hlaunching ▸ hother)]
      by_cases hsize : u = l.threads.size
      · rw [hsize, thread_add_self]
        exact hworker
      · rw [thread_add_of_ne hsize]
        have hu := h.plan u
        rwa [errandOf_other hother] at hu
  · intro hfree
    rw [hlaunching, hholder] at hfree
    cases hfree
  · intro role' w hw
    rw [hworkers]
    rcases h.works_spawn hrole hm hw with ⟨_, hmem, hnot⟩ | ⟨rfl, rfl⟩
    · exact ⟨.inl hmem, fun hmem' => hnot (List.mem_cons_of_mem role hmem')⟩
    · exact ⟨.inr rfl, hnew⟩
  · intro _
    rwa [hstate]
  · intro hstopped
    exact absurd (hstate ▸ hstopped) hnotstopped
  · intro role' v w hv hw
    rcases h.works_spawn hrole hm hv with ⟨hv, _, hnot⟩ | ⟨rfl, rfl⟩ <;>
      rcases h.works_spawn hrole hm hw with ⟨hw, _, hnot'⟩ | ⟨rfl, hrole'⟩
    · exact h.unique role' v w hv hw
    · exact (hnot (hrole' ▸ List.mem_cons_self)).elim
    · exact (hnot' List.mem_cons_self).elim
    · rfl

end Sound

end Lifecycle

end MediaChannels
