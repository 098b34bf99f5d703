import MediaChannels.Session.Lifecycle

/-!
# Histories of a session

Whatever happens to a session is a list of turns: somebody calls it, somebody uses its mailboxes, or one of its threads
makes a step. Every call is a thread of its own here, so who calls several times in a row is several threads, the next
of which is added when the one before has ended.

* `SessionHistory.turn`, `SessionHistory.run`: what a turn and a list of turns lead to.
* `Lifecycle.Works`: a worker is alive.
* `Lifecycle.Moves`: a thread goes on, the others stay where they are. `Lifecycle.Moves.works`: no worker comes to life.
* `Lifecycle.works_add`: only a new thread can be one more worker. `Lifecycle.works_call`: a caller is none.
-/

namespace MediaChannels

/-! ## Turns -/

/-- A call on a session. -/
inductive SessionCall where
  | start
  | stop
  | join
  deriving DecidableEq, Repr

/-- What a thread has to do that makes a call. -/
def SessionCall.ops : SessionCall → List SessionOp
  | start => Lifecycle.startOps
  | stop => Lifecycle.stopOps
  | join => Lifecycle.joinOps

/-- What can happen next to a session. A step comes with whether a probe finds an encoder and whether a worker can be
spawned. -/
inductive SessionTurn where
  | call (c : SessionCall)
  /-- Others have used the mailboxes, and leave them like this. -/
  | mail (office : Office)
  | step (thread : Nat) (outcome : Except Error Unit)

/-- A session, its mailboxes, and who has spawned which worker so far. -/
structure SessionHistory where
  life : Lifecycle
  office : Office
  spawned : List (Nat × Nat) := []

namespace SessionHistory

/-- A session that nobody has called yet. -/
def fresh (kind : ChannelKind) (mailbox : Nat) (office : Office) : SessionHistory :=
  { life := { kind, mailbox }, office }

/-- One turn; a thread that has to wait, or has nothing to do, makes no step. -/
def turn (h : SessionHistory) : SessionTurn → SessionHistory
  | .call c => { h with life := (h.life.call c.ops).2 }
  | .mail office => { h with office }
  | .step t outcome =>
    match h.life.step h.office t outcome with
    | some (life, office) =>
      let workers := List.range' h.life.threads.size (life.threads.size - h.life.threads.size)
      { life, office, spawned := h.spawned ++ workers.map (t, ·) }
    | none => h

/-- All turns, one after the other. -/
def run (h : SessionHistory) (turns : List SessionTurn) : SessionHistory := turns.foldl turn h

end SessionHistory

namespace Lifecycle

variable {l l' : Lifecycle} {t u w : Nat} {role : WorkerRole} {th : SessionThread} {op : SessionOp}
  {rest : List SessionOp}

/-! ## Threads -/

/-- A worker is alive, and this is its role. -/
def Works (l : Lifecycle) (role : WorkerRole) (w : Nat) : Prop :=
  (l.thread w).role = some role ∧ l.isAlive w = true

theorem isAlive_iff : l.isAlive t = true ↔ (l.thread t).todo ≠ [] := by simp [isAlive]

theorem isAlive_eq_false_iff : l.isAlive t = false ↔ (l.thread t).todo = [] := by simp [isAlive]

/-- Whoever has something to do is one of the threads. -/
theorem lt_size_of_todo (h : (l.thread t).todo ≠ []) : t < l.threads.size := by
  apply Nat.lt_of_not_le
  intro hout
  rw [thread, Array.getElem?_eq_none hout] at h
  exact h rfl

theorem size_add (l : Lifecycle) (th : SessionThread) : (l.add th).2.threads.size = l.threads.size + 1 := by simp [add]

theorem thread_add_self : (l.add th).2.thread l.threads.size = th := by simp [add, thread]

theorem thread_add_of_ne (h : u ≠ l.threads.size) : (l.add th).2.thread u = l.thread u := by
  simp [add, thread, Array.getElem?_push, h]

/-- Who has something to do is none of the new threads. -/
theorem thread_add_of_todo (h : (l.thread t).todo ≠ []) : (l.add th).2.thread t = l.thread t :=
  thread_add_of_ne (Nat.ne_of_lt (lt_size_of_todo h))

/-- Only a new thread can be one more worker. -/
theorem works_add (h : (l.add th).2.Works role w) :
    l.Works role w ∨ (w = l.threads.size ∧ th.role = some role) := by
  by_cases hw : w = l.threads.size
  · rw [hw, Works, thread_add_self] at h
    exact .inr ⟨hw, h.1⟩
  · rw [Works, isAlive, thread_add_of_ne hw] at h
    exact .inl h

/-- Who calls the session is no worker. -/
theorem works_call {ops : List SessionOp} (h : (l.call ops).2.Works role w) : l.Works role w := by
  rcases works_add h with hold | ⟨_, hrole⟩
  · exact hold
  · cases hrole

/-! ## A thread goes on -/

/-- Thread `t` had something to do and is `th` now; every other thread stays as it was. -/
structure Moves (l : Lifecycle) (t : Nat) (th : SessionThread) (l' : Lifecycle) : Prop where
  busy : (l.thread t).todo ≠ []
  thread_eq : l'.thread t = th
  role_eq : th.role = (l.thread t).role
  size_eq : l'.threads.size = l.threads.size
  others : ∀ u, u ≠ t → l'.thread u = l.thread u

namespace Moves

theorem of_threads (htodo : (l.thread t).todo = op :: rest) (hthreads : l'.threads = l.threads.setIfInBounds t th)
    (hrole : th.role = (l.thread t).role) : Moves l t th l' := by
  have hbusy : (l.thread t).todo ≠ [] := by simp [htodo]
  refine ⟨hbusy, by simp [thread, hthreads, lt_size_of_todo hbusy], hrole, by simp [hthreads], fun u hu => ?_⟩
  rw [thread, hthreads, Array.getElem?_setIfInBounds_ne (Ne.symm hu)]
  rfl

/-- The same when another thread was added before. -/
theorem of_threads_add {new : SessionThread} (htodo : (l.thread t).todo = op :: rest)
    (hthreads : l'.threads = (l.add new).2.threads.setIfInBounds t th) (hrole : th.role = (l.thread t).role) :
    Moves (l.add new).2 t th l' := by
  have hsame : (l.add new).2.thread t = l.thread t := thread_add_of_todo (by simp [htodo])
  exact of_threads (by rw [hsame, htodo]) hthreads (by rw [hsame, hrole])

theorem size_of_add {new : SessionThread} (hm : Moves (l.add new).2 t th l') :
    l'.threads.size = l.threads.size + 1 := hm.size_eq.trans (l.size_add new)

/-- No worker comes to life. -/
theorem works (h : Moves l t th l') (hw : l'.Works role w) : l.Works role w := by
  by_cases hwt : w = t
  · subst hwt
    exact ⟨h.role_eq ▸ h.thread_eq ▸ hw.1, isAlive_iff.mpr h.busy⟩
  · rwa [Works, isAlive, h.others w hwt] at hw

end Moves

end Lifecycle

end MediaChannels
