import MediaChannels.Proofs.Session.Exclusion

/-!
# What threads of a session come to do

A step takes the first thing off the list of the thread that makes it, and puts the things before the rest that follow
from it. What is on a list therefore tells what was done before.

* `SessionOp.Adds`: what follows from what. `Lifecycle.Step.of_mem_todo`: nothing else comes onto a list.
* `Plan.unique`: what a thread has to do determines its errand. `Sound.unique_errand`: so there is one for a session.
* `Sound.probing`, `Sound.probing_unique`: whoever finds out whether the session can be started holds the launch lock,
  so it is one thread at a time.
-/

namespace MediaChannels

/-! ## What follows from what -/

/-- Doing `op` can put `op'` onto the list of the thread that does it. -/
def SessionOp.Adds (l : Lifecycle) : SessionOp → SessionOp → Prop
  | begin, probe => l.state = .stopped
  | probe, recheck | probe, cancel => True
  | recheck, spawn _ | recheck, finish => True
  | spawn _, register w => w = l.threads.size
  | spawn _, markStopping | spawn _, lockJoin | spawn _, awaitEnd => True
  | markStopping, fetchMailbox => l.state = .starting ∨ l.state = .running
  | fetchMailbox, raiseShutdown mailbox | fetchMailbox, closePackets mailbox => mailbox = l.mailbox
  | awaitEnd, lockLaunch | awaitEnd, recheckEnd | recheckEnd, takeWorkers => True
  | takeWorkers, reap _ | takeWorkers, markStopped => True
  | _, unlockLaunch | _, unlockJoin => True
  | _, _ => False

namespace Lifecycle

variable {l l' : Lifecycle} {office office' : Office} {outcome : Except Error Unit} {t u w : Nat} {op op' : SessionOp}
  {rest : List SessionOp} {th new : SessionThread}

theorem thread_setThread_self (htodo : (l.thread t).todo ≠ []) : (l.setThread t th).thread t = th := by
  simp [setThread, thread, lt_size_of_todo htodo]

theorem thread_setThread_of_ne {u : Nat} (hu : u ≠ t) : (l.setThread t th).thread u = l.thread u := by
  simp [setThread, thread, Ne.symm hu]

/-- Where something comes from that a thread has to do after a step of thread `t`. -/
inductive Origin (l : Lifecycle) (t u : Nat) (op' : SessionOp) : Prop where
  /-- The thread has made no step. -/
  | other (hne : u ≠ t) (hmem : op' ∈ (l.thread u).todo)
  /-- It had to be done later. -/
  | rest {op : SessionOp} {rest : List SessionOp} (hu : u = t) (htodo : (l.thread t).todo = op :: rest)
      (hmem : op' ∈ rest)
  /-- It follows from what was done. -/
  | added {op : SessionOp} {rest : List SessionOp} (hu : u = t) (htodo : (l.thread t).todo = op :: rest)
      (hadds : op.Adds l op')
  /-- It is what a new worker does. -/
  | worker (hu : u = l.threads.size) (hmem : op' ∈ workerOps)

theorem Origin.of_moves (hmem : op' ∈ (l'.thread u).todo) (htodo : (l.thread t).todo = op :: rest)
    (hm : Moves l t th l') (hth : ∀ op' ∈ th.todo, op' ∈ rest ∨ op.Adds l op') : Origin l t u op' := by
  by_cases hu : u = t
  · rw [hu, hm.thread_eq] at hmem
    rcases hth op' hmem with hrest | hadds
    · exact .rest hu htodo hrest
    · exact .added hu htodo hadds
  · rw [hm.others u hu] at hmem
    exact .other hu hmem

/-- The same when a worker was added before. -/
theorem Origin.of_moves_add (hmem : op' ∈ (l'.thread u).todo) (htodo : (l.thread t).todo = op :: rest)
    (hm : Moves (l.add new).2 t th l') (hnew : new.todo = workerOps)
    (hth : ∀ op' ∈ th.todo, op' ∈ rest ∨ op.Adds l op') : Origin l t u op' := by
  by_cases hu : u = t
  · rw [hu, hm.thread_eq] at hmem
    rcases hth op' hmem with hrest | hadds
    · exact .rest hu htodo hrest
    · exact .added hu htodo hadds
  rw [hm.others u hu] at hmem
  by_cases hsize : u = l.threads.size
  · rw [hsize, thread_add_self, hnew] at hmem
    exact .worker hsize hmem
  · rw [thread_add_of_ne hsize] at hmem
    exact .other hu hmem

/-- **Nothing else comes onto a list.** -/
theorem Step.of_mem_todo (h : l.Step office t outcome l' office') (hmem : op' ∈ (l'.thread u).todo) :
    Origin l t u op' := by
  cases h with
  | spawn htodo =>
    exact .of_moves_add hmem htodo (.of_threads_add htodo rfl rfl) rfl (by simp +contextual [SessionOp.Adds])
  | begin htodo hstate _ | markStopping htodo hstate =>
    exact .of_moves hmem htodo (.of_threads htodo rfl rfl) (by simp +contextual [SessionOp.Adds, hstate])
  | spawnFailed htodo =>
    exact .of_moves hmem htodo (.of_threads htodo rfl rfl) (by simp [SessionOp.Adds, stopOps, joinOps])
  | takeWorkers htodo =>
    refine .of_moves hmem htodo (.of_threads htodo rfl rfl) ?_
    simp only [List.mem_append, List.mem_map, List.mem_cons]
    rintro op' (⟨w, _, rfl⟩ | rfl | rfl | rfl | hrest)
    · exact .inr trivial
    · exact .inr trivial
    · exact .inr trivial
    · exact .inr trivial
    · exact .inl hrest
  | lockLaunch htodo _ | unlockLaunch htodo | beginRefused htodo _ | probeFound htodo | probeFailed htodo | cancel htodo
  | recheckStopped htodo _ | recheck htodo _ | register htodo | finish htodo
  | markStoppingIdle htodo _ | fetchMailbox htodo | raiseShutdown htodo | closePackets htodo | lockJoin htodo _
  | unlockJoin htodo | awaitEndStopped htodo _ | awaitEnd htodo _ | recheckEndStopped htodo _ | recheckEnd htodo _
  | reap htodo _ | markStopped htodo | work htodo =>
    exact .of_moves hmem htodo (.of_threads htodo rfl rfl) (by simp +contextual [SessionOp.Adds])

end Lifecycle

/-! ## One errand at a time -/

/-- Having begun to start a session, and not knowing yet whether it can be. -/
def SessionOp.isProbing : SessionOp → Bool
  | .probe | .cancel | .recheck => true
  | _ => false

namespace Plan

/-- **What a thread has to do determines its errand.** -/
theorem unique {ops : List SessionOp} {held held' : Option Errand} (h : Plan ops held) (h' : Plan ops held') :
    held = held' := by
  induction ops generalizing held held' with
  | nil => exact h.trans h'.symm
  | cons op ops ih =>
    cases op with
    | spawn role =>
      obtain ⟨roles, rfl, _, hops, _⟩ := h
      obtain ⟨roles', rfl, _, hops', _⟩ := h'
      obtain rfl : roles = roles' := by simpa using ih hops hops'
      rfl
    | register w =>
      obtain ⟨roles, rfl, hops⟩ := h
      obtain ⟨roles', rfl, hops'⟩ := h'
      obtain rfl : roles = roles' := by simpa using ih hops hops'
      rfl
    | reap w =>
      obtain ⟨workers, rfl, hops⟩ := h
      obtain ⟨workers', rfl, hops'⟩ := h'
      obtain rfl : workers = workers' := by simpa using ih hops hops'
      rfl
    | finish | markStopping | fetchMailbox | raiseShutdown _ | closePackets _ | lockJoin | unlockJoin | work =>
      exact ih h h'
    | _ => exact h.1.trans h'.1.symm

/-- Who is about to find out whether a session can be started is on the errand of doing so. -/
theorem probing {ops : List SessionOp} {held : Option Errand} {op : SessionOp} (h : Plan ops held) (hmem : op ∈ ops)
    (hop : op.isProbing) : held = some .check := by
  induction ops generalizing held with
  | nil => cases hmem
  | cons first ops ih =>
    rcases List.mem_cons.mp hmem with rfl | hlater
    · cases op <;> first | exact h.1 | cases hop
    cases first with
    | lockLaunch | awaitEnd | unlockLaunch | recheckEnd | takeWorkers | markStopped => cases ih h.2 hlater
    | begin | probe | cancel | recheck =>
      rw [h.2] at hlater
      cases hlater
    | spawn role =>
      obtain ⟨_, _, _, hops, _⟩ := h
      cases ih hops hlater
    | register w =>
      obtain ⟨_, _, hops⟩ := h
      cases ih hops hlater
    | reap w =>
      obtain ⟨_, _, hops⟩ := h
      cases ih hops hlater
    | finish | markStopping | fetchMailbox | raiseShutdown _ | closePackets _ | lockJoin | unlockJoin | work =>
      exact ih h hlater

end Plan

namespace Lifecycle.Sound

variable {l : Lifecycle} {e e' : Errand} {t u : Nat} {op op' : SessionOp}

/-- **A session has one errand at a time.** -/
theorem unique_errand (h : l.Sound e) (h' : l.Sound e') : e = e' := by
  cases hholder : l.launching with
  | none => rw [h.idle hholder, h'.idle hholder]
  | some t =>
    have hplan := h.plan t
    have hplan' := h'.plan t
    rw [errandOf_holder hholder] at hplan hplan'
    exact Option.some.inj (hplan.unique hplan')

/-- So it is the errand for which the holder of the launch lock has the right things to do. -/
theorem errand_eq {l' : Lifecycle} {th : SessionThread} (h : l'.Sound e') (hm : Moves l t th l')
    (hholder : l'.launching = some t) (hplan : Plan th.todo (some e)) : e' = e := by
  have hplan' := h.plan t
  rw [hm.thread_eq, errandOf_holder hholder] at hplan'
  exact Option.some.inj (hplan'.unique hplan)

theorem probing (h : l.Sound e) (hmem : op ∈ (l.thread t).todo) (hop : op.isProbing) :
    l.launching = some t ∧ e = .check :=
  of_errandOf ((h.plan t).probing hmem hop)

/-- Only one thread at a time has begun to start the session. -/
theorem probing_unique (h : l.Sound e) (ht : op ∈ (l.thread t).todo) (hu : op' ∈ (l.thread u).todo)
    (hop : op.isProbing) (hop' : op'.isProbing) : t = u :=
  Option.some.inj ((h.probing ht hop).1.symm.trans (h.probing hu hop').1)

end Lifecycle.Sound

end MediaChannels
