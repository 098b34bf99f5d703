import MediaChannels.Proofs.Mail.Office
import MediaChannels.Proofs.Session.Agenda

/-!
# What a stop reaches

Whoever stops a session marks it, then looks which mailbox it has, and then shuts this mailbox down and closes its
packet queue. Each of these is a step of its own. A start takes a new mailbox only when the old one was shut down, so a
run that begins before the stop of an earlier run has come to that gets the mailbox that is going to be shut down.

* `RunHistory`: the starts that have begun a run, and which run a call has stopped.
* `RunHistory.Sound`: the invariant. Starts and workers keep the mailbox that they were given, and a mailbox that is
  going to be shut down is that of the run that was stopped, or of a later one.
* `RunHistory.Barred`: a mailbox that was shut down is given to nobody any more.
* `stop_reaches`: a stop shuts down the mailbox of a run that has begun by then, and no run that begins later has it.
* `stop_ends_next_run`: but one that has begun since the stopped run can.
-/

namespace MediaChannels

/-! ## Histories with runs -/

/-- A session, the starts that have begun a run, in order, and which run a thread has stopped last. -/
structure RunHistory where
  base : SessionHistory
  runs : List Nat := []
  stopped : Nat → Option Nat := fun _ => none

namespace RunHistory

/-- A session that nobody has called yet. -/
def fresh (kind : ChannelKind) (mailbox : Nat) (office : Office) : RunHistory :=
  { base := .fresh kind mailbox office }

/-- The runs after a step of thread `t`. A run begins when a stopped session starts. -/
def runsAfter (h : RunHistory) (t : Nat) (l : Lifecycle) : List Nat :=
  if h.base.life.state = .stopped ∧ l.state = .starting then h.runs ++ [t] else h.runs

/-- The runs that were stopped after a step of thread `t`. It is the last run that is stopped. -/
def stoppedAfter (h : RunHistory) (t : Nat) (l : Lifecycle) : Nat → Option Nat :=
  if h.base.life.state ≠ .stopping ∧ l.state = .stopping then
    fun u => if u = t then some (h.runs.length - 1) else h.stopped u
  else h.stopped

/-- One turn. -/
def turn (h : RunHistory) (next : SessionTurn) : RunHistory :=
  let base := h.base.turn next
  match next with
  | .step t _ => { base, runs := h.runsAfter t base.life, stopped := h.stoppedAfter t base.life }
  | .call _ | .mail _ => { h with base }

/-- All turns, one after the other. -/
def run (h : RunHistory) (turns : List SessionTurn) : RunHistory := turns.foldl turn h

end RunHistory

/-- Whoever else uses the mailboxes keeps what is in them. -/
def SessionHistory.MailKept (h : SessionHistory) : List SessionTurn → Prop
  | [] => True
  | next :: turns => (∀ office, next = .mail office → h.office.Keeps office) ∧ MailKept (h.turn next) turns

/-- Looking for the mailbox of a session, or being about to shut one down. -/
def SessionOp.isReaching : SessionOp → Bool
  | fetchMailbox | raiseShutdown _ => true
  | _ => false

/-- Only the first thing on a list can be about a mailbox, and whoever shuts it down closes its packet queue next. -/
def SessionOp.Tidy : List SessionOp → Prop
  | [] => True
  | op :: rest =>
    (∀ op' ∈ rest, op'.isReaching = false) ∧ ∀ m, op = .raiseShutdown m → ∃ rest', rest = .closePackets m :: rest'

namespace Lifecycle

variable {l l' : Lifecycle} {office office' : Office} {outcome : Except Error Unit} {e : Errand} {t u m : Nat}
  {op : SessionOp} {rest todo : List SessionOp} {th new : SessionThread}

/-! ## Mailboxes of threads -/

/-- A thread that exists, and will not begin a run any more. -/
def Past (l : Lifecycle) (u : Nat) : Prop := u < l.threads.size ∧ .begin ∉ (l.thread u).todo

/-- What a step of thread `t` does to the mailboxes. -/
inductive Effect (l : Lifecycle) (office : Office) (t : Nat) (l' : Lifecycle) (office' : Office) : Prop where
  /-- A run begins. It has a new mailbox if the old one was shut down. -/
  | begun {th : SessionThread} {rest : List SessionOp} (htodo : (l.thread t).todo = .begin :: rest)
      (hm : Moves l t th l') (hth : th.mailbox = l'.mailbox) (hstate : l.state = .stopped)
      (hstate' : l'.state = .starting)
      (hmail : (if office.isRaised l.mailbox .shutdown then office.addMailbox else (l.mailbox, office)) =
        (l'.mailbox, office'))
  /-- There is one more worker, with the mailbox of its run. -/
  | spawned {th new : SessionThread} {role : WorkerRole} {rest : List SessionOp}
      (htodo : (l.thread t).todo = .spawn role :: rest) (hm : Moves (l.add new).2 t th l')
      (hth : th.mailbox = (l.thread t).mailbox) (hnew : new.mailbox = (l.thread t).mailbox)
      (hmailbox : l'.mailbox = l.mailbox) (hstate : l'.state = l.state) (hoffice : office' = office)
  | quiet {th : SessionThread} (hm : Moves l t th l') (hth : th.mailbox = (l.thread t).mailbox)
      (hmailbox : l'.mailbox = l.mailbox) (hstate : l.state = .stopped → l'.state = .stopped)
      (hkeeps : office.Keeps office')

/-- Every step has one of these effects. -/
theorem Step.effect (h : l.Step office t outcome l' office') : l.Effect office t l' office' := by
  cases h with
  | begin htodo hstate hmail => exact .begun htodo (.of_threads htodo rfl rfl) rfl hstate rfl hmail
  | spawn htodo => exact .spawned htodo (.of_threads_add htodo rfl rfl) rfl rfl rfl rfl rfl
  | raiseShutdown htodo => exact .quiet (.of_threads htodo rfl rfl) rfl rfl id (office.keeps_shutDown _)
  | closePackets htodo => exact .quiet (.of_threads htodo rfl rfl) rfl rfl id (office.keeps_closePackets _ _)
  | finish htodo => exact .quiet (.of_threads htodo rfl rfl) rfl rfl (by simp +contextual) (.refl office)
  | markStopping htodo hstate =>
    refine .quiet (.of_threads htodo rfl rfl) rfl rfl (fun hstopped => ?_) (.refl office)
    rcases hstate with hstate | hstate <;> cases hstopped.symm.trans hstate
  | cancel htodo | recheckStopped htodo _ | markStopped htodo =>
    exact .quiet (.of_threads htodo rfl rfl) rfl rfl (fun _ => rfl) (.refl office)
  | lockLaunch htodo _ | unlockLaunch htodo | beginRefused htodo _ | probeFound htodo | probeFailed htodo
  | recheck htodo _ | spawnFailed htodo | register htodo | markStoppingIdle htodo _ | fetchMailbox htodo
  | lockJoin htodo _ | unlockJoin htodo | awaitEndStopped htodo _ | awaitEnd htodo _ | recheckEndStopped htodo _
  | recheckEnd htodo _ | takeWorkers htodo | reap htodo _ | work htodo =>
    exact .quiet (.of_threads htodo rfl rfl) rfl rfl id (.refl office)

/-- A step adds one thread at most. -/
theorem Step.size_eq (h : l.Step office t outcome l' office') :
    l'.threads.size = l.threads.size ∨ l'.threads.size = l.threads.size + 1 := by
  cases h.effect with
  | begun _ hm _ _ _ _ => exact .inl hm.size_eq
  | spawned _ hm _ _ _ _ _ => exact .inr hm.size_of_add
  | quiet hm _ _ _ _ => exact .inl hm.size_eq

/-- Nobody is given a run to begin. -/
theorem Step.begin_not_mem (h : l.Step office t outcome l' office') (hother : u ≠ t → .begin ∉ (l.thread u).todo)
    (hrest : ∀ op rest, u = t → (l.thread t).todo = op :: rest → .begin ∉ rest) : .begin ∉ (l'.thread u).todo := by
  intro hmem
  cases h.of_mem_todo hmem with
  | other hne hmem => exact hother hne hmem
  | rest hu htodo hmem => exact hrest _ _ hu htodo hmem
  | @added op rest _ _ hadds => cases op <;> exact hadds
  | worker _ hmem => simp [workerOps, stopOps] at hmem

/-- Nobody begins a run late. -/
theorem Step.past (h : l.Step office t outcome l' office') (hu : l.Past u) :
    l'.Past u ∧ (l'.thread u).mailbox = (l.thread u).mailbox := by
  obtain ⟨hlt, hnot⟩ := hu
  have hbegin : .begin ∉ (l'.thread u).todo := by
    refine h.begin_not_mem (fun _ => hnot) fun op rest hu htodo hmem => hnot ?_
    rw [hu, htodo]
    exact List.mem_cons_of_mem op hmem
  cases h.effect with
  | begun htodo hm _ _ _ _ =>
    have hne : u ≠ t := by
      rintro rfl
      exact hnot (by simp [htodo])
    exact ⟨⟨hm.size_eq ▸ hlt, hbegin⟩, by rw [hm.others u hne]⟩
  | spawned htodo hm hth _ _ _ _ =>
    refine ⟨⟨hm.size_of_add ▸ Nat.lt_succ_of_lt hlt, hbegin⟩, ?_⟩
    by_cases hne : u = t
    · rw [hne, hm.thread_eq, hth]
    · rw [hm.others u hne, thread_add_of_ne (Nat.ne_of_lt hlt)]
  | quiet hm hth _ _ _ =>
    refine ⟨⟨hm.size_eq ▸ hlt, hbegin⟩, ?_⟩
    by_cases hne : u = t
    · rw [hne, hm.thread_eq, hth]
    · rw [hm.others u hne]

theorem Past.add (h : l.Past u) : (l.add th).2.Past u := by
  refine ⟨by rw [size_add]; exact Nat.lt_succ_of_lt h.1, ?_⟩
  rw [thread_add_of_ne (Nat.ne_of_lt h.1)]
  exact h.2

/-! ## Tidy lists -/

theorem tidy_of_forall (h : ∀ op ∈ todo, op.isReaching = false) : SessionOp.Tidy todo := by
  cases todo with
  | nil => trivial
  | cons op rest =>
    refine ⟨fun op' hmem => h op' (List.mem_cons_of_mem op hmem), fun m hop => ?_⟩
    cases (hop ▸ h op List.mem_cons_self : SessionOp.isReaching (.raiseShutdown m) = false)

/-- Every step leaves tidy lists tidy. -/
theorem Step.tidy (h : l.Step office t outcome l' office') (htidy : ∀ u, SessionOp.Tidy (l.thread u).todo) (u : Nat) :
    SessionOp.Tidy (l'.thread u).todo := by
  have htail : ∀ {op rest}, (l.thread t).todo = op :: rest → ∀ op' ∈ rest, op'.isReaching = false := by
    intro op rest htodo
    have ht := htidy t
    rw [htodo] at ht
    exact ht.1
  have hmoves : ∀ {th}, Moves l t th l' → SessionOp.Tidy th.todo → SessionOp.Tidy (l'.thread u).todo := by
    intro th hm hth
    by_cases hu : u = t
    · rwa [hu, hm.thread_eq]
    · rw [hm.others u hu]
      exact htidy u
  cases h with
  | markStopping htodo _ => exact hmoves (.of_threads htodo rfl rfl) ⟨htail htodo, nofun⟩
  | fetchMailbox htodo =>
    refine hmoves (.of_threads htodo rfl rfl) ⟨fun op' hmem => ?_, fun m hop => ?_⟩
    · rcases List.mem_cons.mp hmem with rfl | hmem
      · rfl
      · exact htail htodo op' hmem
    · cases hop
      exact ⟨_, rfl⟩
  | spawn htodo =>
    by_cases hu : u = t
    · rw [hu, proceed, thread_setThread_self (by rw [thread_add_of_todo] <;> simp [htodo])]
      exact tidy_of_forall (by simpa [SessionOp.isReaching] using htail htodo)
    rw [proceed, thread_setThread_of_ne hu]
    by_cases hsize : u = l.threads.size
    · rw [hsize, thread_add_self]
      exact tidy_of_forall (by simp [workerOps, stopOps, SessionOp.isReaching])
    · rw [thread_add_of_ne hsize]
      exact htidy u
  | spawnFailed htodo =>
    exact hmoves (.of_threads htodo rfl rfl) (tidy_of_forall (by simp [stopOps, joinOps, SessionOp.isReaching]))
  | takeWorkers htodo =>
    refine hmoves (.of_threads htodo rfl rfl) (tidy_of_forall fun op' hmem => ?_)
    simp only [List.mem_append, List.mem_map, List.mem_cons] at hmem
    rcases hmem with ⟨w, _, rfl⟩ | rfl | rfl | rfl | hmem
    · rfl
    · rfl
    · rfl
    · rfl
    · exact htail htodo op' hmem
  | lockLaunch htodo _ | unlockLaunch htodo | beginRefused htodo _ | begin htodo _ _ | probeFound htodo
  | probeFailed htodo | cancel htodo | recheckStopped htodo _ | recheck htodo _ | register htodo | finish htodo
  | markStoppingIdle htodo _ | raiseShutdown htodo | closePackets htodo | lockJoin htodo _ | unlockJoin htodo
  | awaitEndStopped htodo _ | awaitEnd htodo _ | recheckEndStopped htodo _ | recheckEnd htodo _ | reap htodo _
  | markStopped htodo | work htodo =>
    exact hmoves (.of_threads htodo rfl rfl) (tidy_of_forall (by simpa [SessionOp.isReaching] using htail htodo))

/-! ## Stops -/

/-- Only somebody who marks a session makes it stop. -/
theorem Step.state_stopping (h : l.Step office t outcome l' office') (hstate : l'.state = .stopping) :
    l.state = .stopping ∨ ∃ rest, (l.thread t).todo = .markStopping :: rest := by
  cases h with
  | markStopping htodo _ => exact .inr ⟨_, htodo⟩
  | finish _ => by_cases hstarting : l.state = .starting <;> simp_all
  | begin | cancel | recheckStopped | markStopped => cases hstate
  | _ => exact .inl hstate

theorem Step.state_mark (h : l.Step office t outcome l' office') (htodo : (l.thread t).todo = .markStopping :: rest)
    (hstate : l.state = .starting ∨ l.state = .running) : l'.state = .stopping := by
  have hstep := step_eq_some_iff.mpr h
  simp only [step, htodo, hstate, ↓reduceIte, Option.some.injEq, Prod.mk.injEq] at hstep
  rw [← hstep.1]

end Lifecycle

namespace RunHistory

variable {h : RunHistory} {t m n : Nat}

/-- What is known at all times about runs, their mailboxes, and the stops that are under way. Who has begun a run begins
no other, and keeps its mailbox. -/
structure Sound (h : RunHistory) : Prop where
  life : ∃ e, h.base.life.Sound e
  regular : h.base.office.Regular
  mailbox_lt : h.base.life.mailbox < h.base.office.mailboxes.size
  /-- A session that is not stopped has a run. -/
  begun : h.base.life.state ≠ .stopped → h.runs ≠ []
  /-- The mailbox of a session is that of its last run. -/
  newest : ∀ s, h.runs.getLast? = some s → (h.base.life.thread s).mailbox = h.base.life.mailbox
  past : ∀ s ∈ h.runs, h.base.life.Past s
  given : ∀ s ∈ h.runs, (h.base.life.thread s).mailbox < h.base.office.mailboxes.size
  /-- Workers have the mailbox of their run. -/
  workers : ∀ s w, (s, w) ∈ h.base.spawned → h.base.life.Past s ∧ h.base.life.Past w ∧
    (h.base.life.thread w).mailbox = (h.base.life.thread s).mailbox
  tidy : ∀ t, SessionOp.Tidy (h.base.life.thread t).todo
  /-- Who looks for a mailbox has stopped a run, and finds the mailbox of this run or of a later one. -/
  stops : ∀ t, ∀ op ∈ (h.base.life.thread t).todo, op.isReaching → ∃ k, h.stopped t = some k ∧ k < h.runs.length ∧
    ∀ m, op = .raiseShutdown m → ∃ i s, k ≤ i ∧ h.runs[i]? = some s ∧ (h.base.life.thread s).mailbox = m

/-! ### Steps -/

section

variable {outcome : Except Error Unit} {l : Lifecycle} {office : Office} {s w : Nat} (hs : h.Sound)
  (hstep : h.base.life.Step h.base.office t outcome l office)

theorem runs_prefix : h.runs <+: h.runsAfter t l := by
  rw [runsAfter]
  split
  · exact List.prefix_append _ _
  · exact List.prefix_rfl

theorem getElem?_runsAfter {i : Nat} (hi : h.runs[i]? = some s) : (h.runsAfter t l)[i]? = some s := by
  obtain ⟨later, hlater⟩ := runs_prefix (h := h) (t := t) (l := l)
  rw [← hlater, List.getElem?_append_left (List.getElem?_eq_some_iff.mp hi).1, hi]

theorem stoppedAfter_of_ne {u : Nat} (hu : u ≠ t) : h.stoppedAfter t l u = h.stopped u := by
  rw [stoppedAfter]
  split
  · exact if_neg hu
  · rfl

/-- What a step of thread `t` does to the runs. -/
inductive NextRun (h : RunHistory) (t : Nat) (l : Lifecycle) (office : Office) : Prop where
  | same (hruns : h.runsAfter t l = h.runs) (hmailbox : l.mailbox = h.base.life.mailbox)
  /-- A run begins, with a mailbox that was not shut down. -/
  | new {rest : List SessionOp} (htodo : (h.base.life.thread t).todo = .begin :: rest)
      (hruns : h.runsAfter t l = h.runs ++ [t]) (hmailbox : (l.thread t).mailbox = l.mailbox)
      (hfresh : ∀ m < h.base.office.mailboxes.size, h.base.office.isRaised m .shutdown = true → l.mailbox ≠ m)

include hstep

theorem nextRun : h.NextRun t l office := by
  have hsame : (h.base.life.state = .stopped → l.state = .stopped) → h.runsAfter t l = h.runs := fun hstate =>
    if_neg fun ⟨hstopped, hstarting⟩ => nomatch (hstate hstopped).symm.trans hstarting
  cases hstep.effect with
  | spawned _ _ _ _ hmailbox hstate _ => exact .same (hsame fun hstopped => hstate.trans hstopped) hmailbox
  | quiet _ _ hmailbox hstate _ => exact .same (hsame hstate) hmailbox
  | begun htodo hm hth hstate hstate' hmail =>
    refine .new htodo (if_pos ⟨hstate, hstate'⟩) (hm.thread_eq ▸ hth) fun m hlt hraised => ?_
    split at hmail
    · obtain ⟨hmailbox, _⟩ := Prod.mk.inj hmail
      omega
    · next hnot =>
      obtain ⟨hmailbox, _⟩ := Prod.mk.inj hmail
      rintro rfl
      exact hnot (hmailbox ▸ hraised)

include hs

theorem Sound.past_step (hmem : s ∈ h.runsAfter t l) : l.Past s := by
  have hold : s ∈ h.runs → l.Past s := fun hmem => (hstep.past (hs.past s hmem)).1
  cases nextRun hstep with
  | same hruns _ => exact hold (hruns ▸ hmem)
  | new htodo hruns _ _ =>
    rcases List.mem_append.mp (hruns ▸ hmem) with hmem | hmem
    · exact hold hmem
    obtain rfl := List.mem_singleton.mp hmem
    obtain ⟨e, hlife⟩ := hs.life
    obtain ⟨_, rfl⟩ := hlife.plan_of_todo htodo
    have hlt : s < h.base.life.threads.size := Lifecycle.lt_size_of_todo (by simp [htodo])
    have hsize := hstep.size_eq
    refine ⟨by omega, hstep.begin_not_mem (fun hne => absurd rfl hne) ?_⟩
    intro op rest _ htodo' hmem
    cases htodo.symm.trans htodo'
    cases hmem

theorem Sound.newest_step (hlast : (h.runsAfter t l).getLast? = some s) : (l.thread s).mailbox = l.mailbox := by
  cases nextRun hstep with
  | same hruns hmailbox =>
    rw [hruns] at hlast
    rw [(hstep.past (hs.past s (List.mem_of_getLast? hlast))).2, hmailbox]
    exact hs.newest s hlast
  | new _ hruns hmailbox _ =>
    rw [hruns] at hlast
    obtain rfl : t = s := by simpa using hlast
    exact hmailbox

/-- A worker that is spawned has the mailbox of the start that has spawned it. -/
theorem Sound.workers_step (hmem : (s, w) ∈ h.base.spawned ∨
      s = t ∧ w = h.base.life.threads.size ∧ l.threads.size = h.base.life.threads.size + 1) :
    l.Past s ∧ l.Past w ∧ (l.thread w).mailbox = (l.thread s).mailbox := by
  rcases hmem with hmem | ⟨rfl, rfl, hsize⟩
  · obtain ⟨hpast, hpast', heq⟩ := hs.workers s w hmem
    obtain ⟨hpast, hsame⟩ := hstep.past hpast
    obtain ⟨hpast', hsame'⟩ := hstep.past hpast'
    exact ⟨hpast, hpast', by rw [hsame, hsame', heq]⟩
  cases hstep.effect with
  | begun _ hm _ _ _ _ =>
    have := hm.size_eq
    omega
  | quiet hm _ _ _ _ =>
    have := hm.size_eq
    omega
  | spawned htodo hm hth hnew _ _ _ =>
    obtain ⟨e, hlife⟩ := hs.life
    obtain ⟨_, _, _, _, hlater⟩ := hlife.plan_of_todo htodo
    have hlt : s < h.base.life.threads.size := Lifecycle.lt_size_of_todo (by simp [htodo])
    have hne : h.base.life.threads.size ≠ s := Nat.ne_of_gt hlt
    refine ⟨⟨by omega, hstep.begin_not_mem (fun hne => absurd rfl hne) ?_⟩,
      ⟨by omega, hstep.begin_not_mem (fun _ => ?_) fun _ _ heq => absurd heq hne⟩, ?_⟩
    · intro op rest _ htodo' hmem
      cases htodo.symm.trans htodo'
      cases hlater _ hmem
    · simp [Lifecycle.thread, default]
    · rw [hm.others _ hne, Lifecycle.thread_add_self, hnew, hm.thread_eq, hth]

theorem Sound.begun_step (hstate : l.state ≠ .stopped) : h.runsAfter t l ≠ [] := by
  have hold : h.base.life.state ≠ .stopped → h.runsAfter t l ≠ [] := fun hnot hnil =>
    hs.begun hnot (List.prefix_nil.mp (hnil ▸ runs_prefix))
  cases hstep.effect with
  | begun _ _ _ hstopped hstarting _ => simp [runsAfter, hstopped, hstarting]
  | spawned _ _ _ _ _ hsame _ => exact hold (hsame ▸ hstate)
  | quiet _ _ _ hkept _ => exact hold fun hstopped => hstate (hkept hstopped)

/-- The mailbox of a session exists. -/
theorem Sound.mailbox_step : h.base.office.Keeps office ∧ l.mailbox < office.mailboxes.size := by
  have hlt := hs.mailbox_lt
  cases hstep.effect with
  | begun _ _ _ _ _ hmail =>
    split at hmail
    · obtain ⟨hmailbox, rfl⟩ := Prod.mk.inj hmail
      exact ⟨h.base.office.keeps_addMailbox, by simp [← hmailbox]⟩
    · obtain ⟨hmailbox, rfl⟩ := Prod.mk.inj hmail
      exact ⟨.refl _, hmailbox ▸ hlt⟩
  | spawned _ _ _ _ hmailbox _ hoffice =>
    rw [hmailbox, hoffice]
    exact ⟨.refl _, hlt⟩
  | quiet _ _ hmailbox _ hkeeps =>
    rw [hmailbox]
    exact ⟨hkeeps, Nat.lt_of_lt_of_le hlt hkeeps.size_le⟩

theorem Sound.given_step (hmem : s ∈ h.runsAfter t l) : (l.thread s).mailbox < office.mailboxes.size := by
  obtain ⟨hkeeps, hlt⟩ := hs.mailbox_step hstep
  have hold : s ∈ h.runs → (l.thread s).mailbox < office.mailboxes.size := by
    intro hmem
    rw [(hstep.past (hs.past s hmem)).2]
    exact Nat.lt_of_lt_of_le (hs.given s hmem) hkeeps.size_le
  cases nextRun hstep with
  | same hruns _ => exact hold (hruns ▸ hmem)
  | new _ hruns hmailbox _ =>
    rcases List.mem_append.mp (hruns ▸ hmem) with hmem | hmem
    · exact hold hmem
    · rwa [List.mem_singleton.mp hmem, hmailbox]

omit hs in
/-- Nobody stops a run but by marking the session. -/
theorem stoppedAfter_eq (hnot : ∀ rest, (h.base.life.thread t).todo ≠ .markStopping :: rest) :
    h.stoppedAfter t l = h.stopped := by
  refine if_neg fun ⟨hnotstopping, hstopping⟩ => ?_
  rcases hstep.state_stopping hstopping with hstate | ⟨rest, htodo⟩
  · exact hnotstopping hstate
  · exact hnot rest htodo

/-- Who marks the session stops its last run. -/
theorem Sound.stoppedAfter_mark {rest : List SessionOp} (htodo : (h.base.life.thread t).todo = .markStopping :: rest)
    (hactive : h.base.life.state = .starting ∨ h.base.life.state = .running) :
    h.stoppedAfter t l t = some (h.runs.length - 1) ∧ h.runs.length - 1 < h.runs.length := by
  have hnotstopping : h.base.life.state ≠ .stopping := by rcases hactive with hstate | hstate <;> simp [hstate]
  have hruns : h.runs ≠ [] := hs.begun (by rcases hactive with hstate | hstate <;> simp [hstate])
  constructor
  · rw [stoppedAfter, if_pos ⟨hnotstopping, hstep.state_mark htodo hactive⟩, if_pos rfl]
  · have := List.length_pos_iff.mpr hruns
    omega

omit hstep in
theorem Sound.last_run (hpos : 0 < h.runs.length) :
    ∃ s, h.runs[h.runs.length - 1]? = some s ∧ (h.base.life.thread s).mailbox = h.base.life.mailbox := by
  have hi : h.runs[h.runs.length - 1]? = some (h.runs.get ⟨h.runs.length - 1, by omega⟩) :=
    List.getElem?_eq_getElem (by omega)
  exact ⟨_, hi, hs.newest _ (List.getLast?_eq_getElem?.trans hi)⟩

/-- Who marks a session has stopped its last run; who looks for the mailbox then finds that of the last run. -/
theorem Sound.stops_step {u : Nat} {op : SessionOp} (hmem : op ∈ (l.thread u).todo) (hop : op.isReaching) :
    ∃ k, h.stoppedAfter t l u = some k ∧ k < (h.runsAfter t l).length ∧
      ∀ m, op = .raiseShutdown m → ∃ i s, k ≤ i ∧ (h.runsAfter t l)[i]? = some s ∧ (l.thread s).mailbox = m := by
  have hlength : h.runs.length ≤ (h.runsAfter t l).length := runs_prefix.length_le
  have hrun : ∀ {i s}, h.runs[i]? = some s →
      (h.runsAfter t l)[i]? = some s ∧ (l.thread s).mailbox = (h.base.life.thread s).mailbox := fun hi =>
    ⟨getElem?_runsAfter hi, (hstep.past (hs.past _ (List.mem_of_getElem? hi))).2⟩
  cases hstep.of_mem_todo hmem with
  | other hne hmem =>
    obtain ⟨k, hk, hlt, hreach⟩ := hs.stops u op hmem hop
    refine ⟨k, by rw [stoppedAfter_of_ne hne, hk], Nat.lt_of_lt_of_le hlt hlength, fun m heq => ?_⟩
    obtain ⟨i, s, hki, hi, hm⟩ := hreach m heq
    exact ⟨i, s, hki, (hrun hi).1, (hrun hi).2.trans hm⟩
  | rest _ htodo hmem =>
    have htidy := hs.tidy t
    rw [htodo] at htidy
    rw [htidy.1 op hmem] at hop
    cases hop
  | @added first rest hu htodo hadds =>
    subst hu
    cases op with
    | fetchMailbox =>
      cases first <;> first | exact hadds.elim | skip
      obtain ⟨hk, hlt⟩ := hs.stoppedAfter_mark hstep htodo hadds
      exact ⟨_, hk, Nat.lt_of_lt_of_le hlt hlength, nofun⟩
    | raiseShutdown m =>
      cases first <;> first | exact hadds.elim | skip
      have hm : m = h.base.life.mailbox := hadds
      obtain ⟨k, hk, hlt, _⟩ := hs.stops u .fetchMailbox (by simp [htodo]) rfl
      obtain ⟨s, hi, hlast⟩ := hs.last_run (by omega)
      have hstopped : h.stoppedAfter u l = h.stopped := stoppedAfter_eq hstep (by simp [htodo])
      refine ⟨k, hstopped ▸ hk, Nat.lt_of_lt_of_le hlt hlength, fun m' heq => ?_⟩
      refine ⟨h.runs.length - 1, s, by omega, (hrun hi).1, (hrun hi).2.trans ?_⟩
      rw [hlast, ← hm]
      exact SessionOp.raiseShutdown.inj heq
    | _ => cases hop
  | worker _ hmem =>
    simp only [Lifecycle.workerOps, Lifecycle.stopOps, List.mem_cons, List.not_mem_nil, or_false] at hmem
    rcases hmem with rfl | rfl <;> cases hop

end

/-! ### Turns -/

theorem Sound.fresh {kind : ChannelKind} {mailbox : Nat} {office : Office} (hoffice : office.Regular)
    (hmailbox : mailbox < office.mailboxes.size) : (RunHistory.fresh kind mailbox office).Sound :=
  ⟨⟨.idle, .fresh kind mailbox⟩, hoffice, hmailbox, fun hstate => absurd rfl hstate, nofun, nofun, nofun, nofun,
    fun _ => trivial, nofun⟩

theorem Sound.call (hs : h.Sound) (c : SessionCall) : (h.turn (.call c)).Sound := by
  obtain ⟨e, hlife⟩ := hs.life
  have hthread : ∀ {u}, u < h.base.life.threads.size → (h.base.life.call c.ops).2.thread u = h.base.life.thread u :=
    fun hu => Lifecycle.thread_add_of_ne (Nat.ne_of_lt hu)
  have hpast : ∀ {u}, h.base.life.Past u → (h.base.life.call c.ops).2.Past u := Lifecycle.Past.add
  have hcases : ∀ u, (h.base.life.call c.ops).2.thread u = h.base.life.thread u ∨
      (h.base.life.call c.ops).2.thread u = { todo := c.ops } := by
    intro u
    by_cases hu : u = h.base.life.threads.size
    · exact .inr (hu ▸ Lifecycle.thread_add_self)
    · exact .inl (Lifecycle.thread_add_of_ne hu)
  have hops : ∀ op ∈ c.ops, op.isReaching = false := by cases c <;> decide
  have hgiven : ∀ {s}, s ∈ h.runs →
      ((h.base.life.call c.ops).2.thread s).mailbox = (h.base.life.thread s).mailbox :=
    fun hmem => congrArg _ (hthread (hs.past _ hmem).1)
  refine ⟨⟨e, hlife.call c⟩, hs.regular, hs.mailbox_lt, hs.begun, ?_, fun s hmem => hpast (hs.past s hmem), ?_, ?_, ?_,
    ?_⟩
  · intro s hlast
    exact (hgiven (List.mem_of_getLast? hlast)).trans (hs.newest s hlast)
  · intro s hmem
    exact Nat.lt_of_le_of_lt (Nat.le_of_eq (hgiven hmem)) (hs.given s hmem)
  · intro s w hmem
    obtain ⟨hs', hw, heq⟩ := hs.workers s w hmem
    refine ⟨hpast hs', hpast hw, ?_⟩
    show ((h.base.life.call c.ops).2.thread w).mailbox = ((h.base.life.call c.ops).2.thread s).mailbox
    rw [hthread hs'.1, hthread hw.1, heq]
  · intro u
    show SessionOp.Tidy ((h.base.life.call c.ops).2.thread u).todo
    rcases hcases u with hu | hu <;> rw [hu]
    · exact hs.tidy u
    · exact Lifecycle.tidy_of_forall hops
  · intro u op hmem hop
    have hmem : op ∈ ((h.base.life.call c.ops).2.thread u).todo := hmem
    rcases hcases u with hu | hu <;> rw [hu] at hmem
    · obtain ⟨k, hk, hlt, hreach⟩ := hs.stops u op hmem hop
      refine ⟨k, hk, hlt, fun m heq => ?_⟩
      obtain ⟨i, s, hki, hi, hm⟩ := hreach m heq
      exact ⟨i, s, hki, hi, (hgiven (List.mem_of_getElem? hi)).trans hm⟩
    · rw [hops op hmem] at hop
      cases hop

theorem Sound.mail (hs : h.Sound) {office : Office} (hkeeps : h.base.office.Keeps office) :
    (h.turn (.mail office)).Sound :=
  ⟨hs.life, hkeeps.regular hs.regular, Nat.lt_of_lt_of_le hs.mailbox_lt hkeeps.size_le, hs.begun, hs.newest, hs.past,
    fun s hmem => Nat.lt_of_lt_of_le (hs.given s hmem) hkeeps.size_le, hs.workers, hs.tidy, hs.stops⟩

theorem turn_step_of_none {outcome : Except Error Unit} (hstep : h.base.life.step h.base.office t outcome = none) :
    h.turn (.step t outcome) = h := by
  have hbase : h.base.turn (.step t outcome) = h.base := by simp only [SessionHistory.turn, hstep]
  have hruns : h.runsAfter t h.base.life = h.runs := if_neg fun ⟨hstopped, hstarting⟩ =>
    nomatch hstopped.symm.trans hstarting
  have hstopped : h.stoppedAfter t h.base.life = h.stopped := if_neg fun ⟨hnot, hstate⟩ => hnot hstate
  simp only [turn, hbase, hruns, hstopped]

theorem Sound.step (hs : h.Sound) (t : Nat) (outcome : Except Error Unit) : (h.turn (.step t outcome)).Sound := by
  obtain ⟨e, hlife⟩ := hs.life
  cases hstep : h.base.life.step h.base.office t outcome with
  | none => rwa [turn_step_of_none hstep]
  | some next =>
    obtain ⟨l, office⟩ := next
    have hrule := Lifecycle.step_eq_some_iff.mp hstep
    obtain ⟨hkeeps, hmailbox⟩ := hs.mailbox_step hrule
    simp only [turn, SessionHistory.turn, hstep]
    refine ⟨hlife.step hrule, hkeeps.regular hs.regular, hmailbox, hs.begun_step hrule, fun s => hs.newest_step hrule,
      fun s => hs.past_step hrule, fun s => hs.given_step hrule, ?_, hrule.tidy hs.tidy,
      fun u op => hs.stops_step hrule⟩
    intro s w hmem
    have hcases : (s, w) ∈ h.base.spawned ∨
        s = t ∧ w = h.base.life.threads.size ∧ l.threads.size = h.base.life.threads.size + 1 := by
      refine (List.mem_append.mp hmem).imp_right fun hnew => ?_
      obtain ⟨worker, hrange, heq⟩ := List.mem_map.mp hnew
      obtain ⟨rfl, rfl⟩ := Prod.mk.inj heq
      have hsize := hrule.size_eq
      rw [List.mem_range'_1] at hrange
      exact ⟨rfl, by omega, by omega⟩
    exact hs.workers_step hrule hcases

theorem Sound.turn (hs : h.Sound) : ∀ {next}, (∀ office, next = .mail office → h.base.office.Keeps office) →
    (h.turn next).Sound
  | .call c, _ => hs.call c
  | .mail _, hkept => hs.mail (hkept _ rfl)
  | .step t outcome, _ => hs.step t outcome

theorem base_turn (h : RunHistory) (next : SessionTurn) : (h.turn next).base = h.base.turn next := by
  cases next <;> rfl

theorem base_run (h : RunHistory) (turns : List SessionTurn) : (h.run turns).base = h.base.run turns := by
  induction turns generalizing h with
  | nil => rfl
  | cons next turns ih => exact (ih _).trans (congrArg (SessionHistory.run · turns) (h.base_turn next))

/-- What every turn keeps, every run keeps. -/
theorem run_induction {P : RunHistory → Prop} {turns : List SessionTurn}
    (hturn : ∀ h next, P h → (∀ office, next = .mail office → h.base.office.Keeps office) → P (h.turn next))
    (hP : P h) (hkept : h.base.MailKept turns) : P (h.run turns) := by
  induction turns generalizing h with
  | nil => exact hP
  | cons next turns ih =>
    refine ih (hturn h next hP hkept.1) ?_
    rw [base_turn]
    exact hkept.2

theorem Sound.run (hs : h.Sound) {turns : List SessionTurn} (hkept : h.base.MailKept turns) : (h.run turns).Sound :=
  run_induction (fun _ _ hs hkept => hs.turn hkept) hs hkept

/-! ## Mailboxes that were shut down -/

/-- Mailbox `m` was shut down, and none of the runs from number `n` on has it. -/
structure Barred (h : RunHistory) (n m : Nat) : Prop where
  exist : m < h.base.office.mailboxes.size
  raised : h.base.office.isRaised m .shutdown = true
  later : ∀ j s, n ≤ j → h.runs[j]? = some s → (h.base.life.thread s).mailbox ≠ m

theorem Barred.turn (hb : h.Barred n m) (hs : h.Sound) :
    ∀ {next}, (∀ office, next = .mail office → h.base.office.Keeps office) → (h.turn next).Barred n m
  | .call c, _ => by
    refine ⟨hb.exist, hb.raised, fun j s hj hrun => ?_⟩
    have hlt := (hs.past s (List.mem_of_getElem? hrun)).1
    exact fun heq => hb.later j s hj hrun ((congrArg _ (Lifecycle.thread_add_of_ne (Nat.ne_of_lt hlt)).symm).trans heq)
  | .mail office, hkept =>
    have hkeeps := hkept office rfl
    ⟨Nat.lt_of_lt_of_le hb.exist hkeeps.size_le, hkeeps.raised m hb.exist hb.raised, hb.later⟩
  | .step t outcome, _ => by
    cases hstep : h.base.life.step h.base.office t outcome with
    | none => rwa [turn_step_of_none hstep]
    | some next =>
      obtain ⟨l, office⟩ := next
      have hrule := Lifecycle.step_eq_some_iff.mp hstep
      have hkeeps := (hs.mailbox_step hrule).1
      simp only [RunHistory.turn, SessionHistory.turn, hstep]
      refine ⟨Nat.lt_of_lt_of_le hb.exist hkeeps.size_le, hkeeps.raised m hb.exist hb.raised, ?_⟩
      have hold : ∀ j s, n ≤ j → h.runs[j]? = some s → (l.thread s).mailbox ≠ m := by
        intro j s hj hrun
        rw [(hrule.past (hs.past s (List.mem_of_getElem? hrun))).2]
        exact hb.later j s hj hrun
      intro j s hj hrun
      cases nextRun hrule with
      | same hruns _ => exact hold j s hj (hruns ▸ hrun)
      | new _ hruns hmailbox hfresh =>
        rw [hruns] at hrun
        rcases Nat.lt_or_ge j h.runs.length with hlt | hge
        · rw [List.getElem?_append_left hlt] at hrun
          exact hold j s hj hrun
        · rw [List.getElem?_append_right hge] at hrun
          rw [List.mem_singleton.mp (List.mem_of_getElem? hrun), hmailbox]
          exact hfresh m hb.exist hb.raised

theorem Barred.run (hb : h.Barred n m) (hs : h.Sound) {turns : List SessionTurn} (hkept : h.base.MailKept turns) :
    (h.run turns).Barred n m :=
  (run_induction (P := fun h => h.Sound ∧ h.Barred n m)
    (fun _ _ ⟨hs, hb⟩ hkept => ⟨hs.turn hkept, hb.turn hs hkept⟩) ⟨hs, hb⟩ hkept).2

/-- Run `j` has mailbox `m`: its start was given it, or one of its workers. -/
def Has (h : RunHistory) (j m : Nat) : Prop :=
  ∃ s, h.runs[j]? = some s ∧ ((h.base.life.thread s).mailbox = m ∨
    ∃ w, (s, w) ∈ h.base.spawned ∧ (h.base.life.thread w).mailbox = m)

theorem Barred.not_has (hb : h.Barred n m) (hs : h.Sound) {j : Nat} (hj : n ≤ j) : ¬ h.Has j m := by
  rintro ⟨s, hrun, hmailbox | ⟨w, hmem, hmailbox⟩⟩
  · exact hb.later j s hj hrun hmailbox
  · rw [(hs.workers s w hmem).2.2] at hmailbox
    exact hb.later j s hj hrun hmailbox

/-- Shutting a mailbox down bars it from all runs that begin later. -/
theorem Sound.barred {rest : List SessionOp} (hs : h.Sound)
    (htodo : (h.base.life.thread t).todo = .raiseShutdown m :: rest) (hm : m < h.base.office.mailboxes.size)
    (outcome : Except Error Unit) : (h.turn (.step t outcome)).Barred h.runs.length m := by
  have hrule : h.base.life.Step h.base.office t outcome (h.base.life.proceed t (h.base.life.thread t) rest)
      (h.base.office.shutDown m) := .raiseShutdown htodo
  have hstep := Lifecycle.step_eq_some_iff.mpr hrule
  have hruns : h.runsAfter t (h.base.life.proceed t (h.base.life.thread t) rest) = h.runs := by
    cases nextRun hrule with
    | same hruns _ => exact hruns
    | new htodo' _ _ _ => cases htodo.symm.trans htodo'
  simp only [RunHistory.turn, SessionHistory.turn, hstep]
  refine ⟨Nat.lt_of_lt_of_le hm (h.base.office.keeps_shutDown m).size_le, Office.isRaised_shutDown hs.regular hm, ?_⟩
  intro j s hj hrun
  rw [hruns, List.getElem?_eq_none hj] at hrun
  cases hrun

end RunHistory

theorem SessionHistory.mailKept_append {h : SessionHistory} {turns later : List SessionTurn}
    (hkept : h.MailKept (turns ++ later)) : h.MailKept turns ∧ (h.run turns).MailKept later := by
  induction turns generalizing h with
  | nil => exact ⟨trivial, hkept⟩
  | cons next turns ih => exact ⟨⟨hkept.1, (ih hkept.2).1⟩, (ih hkept.2).2⟩

theorem SessionHistory.mailKept_of_forall {h : SessionHistory} {turns : List SessionTurn}
    (hnone : ∀ next ∈ turns, ∀ office, next ≠ .mail office) : h.MailKept turns := by
  induction turns generalizing h with
  | nil => trivial
  | cons next turns ih =>
    refine ⟨fun office heq => absurd heq (hnone next List.mem_cons_self office), ih fun next' hmem => ?_⟩
    exact hnone next' (List.mem_cons_of_mem next hmem)

/-- **What a stop reaches.** When a stop comes to shut down a mailbox, it has stopped some run, and this is the mailbox
of that run or of a later one; next it closes the packet queue of the same mailbox. Of the later runs, however many
there will be, only those have this mailbox that have begun by then. So the stop ends no later run if none has begun
since. -/
theorem stop_reaches {kind : ChannelKind} {mailbox : Nat} {office : Office} (hoffice : office.Regular)
    (hmailbox : mailbox < office.mailboxes.size) {turns later : List SessionTurn} {t m : Nat}
    {outcome : Except Error Unit} {rest : List SessionOp}
    (hkept : (SessionHistory.fresh kind mailbox office).MailKept (turns ++ .step t outcome :: later))
    (htodo : (((RunHistory.fresh kind mailbox office).run turns).base.life.thread t).todo =
      .raiseShutdown m :: rest) :
    let h := (RunHistory.fresh kind mailbox office).run turns
    let h' := h.run (.step t outcome :: later)
    ∃ k, h.stopped t = some k ∧ (∃ i, k ≤ i ∧ h.Has i m) ∧ (∃ rest', rest = .closePackets m :: rest') ∧
      ∀ j, k < j → h'.Has j m → j < h.runs.length := by
  intro h h'
  obtain ⟨hturns, hlater⟩ := SessionHistory.mailKept_append hkept
  have hs : h.Sound := (RunHistory.Sound.fresh hoffice hmailbox).run hturns
  have htidy := hs.tidy t
  rw [htodo] at htidy
  obtain ⟨k, hk, _, hreach⟩ := hs.stops t (.raiseShutdown m) (by rw [htodo]; exact List.mem_cons_self) rfl
  obtain ⟨i, s, hki, hi, hm⟩ := hreach m rfl
  refine ⟨k, hk, ⟨i, hki, s, hi, .inl hm⟩, htidy.2 m rfl, ?_⟩
  intro j _ hhas
  have hbarred : (h.turn (.step t outcome)).Barred h.runs.length m :=
    hs.barred htodo (hm ▸ hs.given s (List.mem_of_getElem? hi)) outcome
  have hlater : (h.turn (.step t outcome)).base.MailKept later := by
    rw [RunHistory.base_turn, RunHistory.base_run]
    exact hlater.2
  apply Nat.lt_of_not_le
  intro hj
  exact (hbarred.run (hs.step t outcome) hlater).not_has ((hs.step t outcome).run hlater) hj hhas

/-- A session runs when it is stopped, by a thread that comes as far as shutting its mailbox down. -/
def SessionTurn.stopAtWork : List SessionTurn :=
  [.call .start] ++ List.replicate 10 (.step 0 (.ok ())) ++ [.call .stop] ++ List.replicate 2 (.step 3 (.ok ()))

/-- The stop goes on, the workers end, and the session is started again. -/
def SessionTurn.startAgain : List SessionTurn :=
  [3, 1, 1, 2, 2].map (.step · (.ok ())) ++ [.call .join] ++ List.replicate 10 (.step 4 (.ok ())) ++
    [.call .start] ++ List.replicate 5 (.step 5 (.ok ()))

theorem stop_reaches_own_run :
    let h := (RunHistory.fresh .audio 0 Office.empty.addMailbox.2).run SessionTurn.stopAtWork
    let h' := h.run (.step 3 (.ok ()) :: SessionTurn.startAgain)
    (h.base.life.thread 3).todo = [.raiseShutdown 0, .closePackets 0] ∧ h.stopped 3 = some 0 ∧ h.runs = [0] ∧
      h'.runs = [0, 5] ∧ ¬ h'.Has 1 0 := by
  intro h h'
  have htodo : (h.base.life.thread 3).todo = [.raiseShutdown 0, .closePackets 0] := by decide +kernel
  have hstopped : h.stopped 3 = some 0 := by decide +kernel
  have hruns : h.runs = [0] := by decide +kernel
  have hruns' : h'.runs = [0, 5] := by decide +kernel
  refine ⟨htodo, hstopped, hruns, hruns', fun hhas => ?_⟩
  have hkept : (SessionHistory.fresh .audio 0 Office.empty.addMailbox.2).MailKept
      (SessionTurn.stopAtWork ++ .step 3 (.ok ()) :: SessionTurn.startAgain) :=
    SessionHistory.mailKept_of_forall (by simp [SessionTurn.stopAtWork, SessionTurn.startAgain])
  obtain ⟨k, hk, _, _, hlater⟩ :=
    stop_reaches (Office.empty.keeps_addMailbox.regular Office.regular_empty) (by decide) hkept htodo
  obtain rfl : k = 0 := Option.some.inj (hk.symm.trans hstopped)
  have hlt := hlater 1 (by decide) hhas
  rw [hruns] at hlt
  exact absurd hlt (by decide)

/-- A session is stopped while encoders are probed, so its start goes back, and the next start begins before the stop
has come to shut the mailbox down. -/
def SessionTurn.lateStop : List SessionTurn :=
  [.call .start] ++ List.replicate 2 (.step 0 (.ok ())) ++ [.call .stop, .step 1 (.ok ())] ++
    List.replicate 3 (.step 0 (.ok ())) ++ [.call .start] ++ List.replicate 10 (.step 2 (.ok ())) ++ [.step 1 (.ok ())]

/-- **A stop can end a run that has begun since the one that it has stopped.** Both have one mailbox. -/
theorem stop_ends_next_run :
    let h := (RunHistory.fresh .audio 0 Office.empty.addMailbox.2).run SessionTurn.lateStop
    h.stopped 1 = some 0 ∧ (h.base.life.thread 1).todo = [.raiseShutdown 0, .closePackets 0] ∧
      h.base.life.state = .running ∧ h.runs = [0, 2] ∧ (2, 3) ∈ h.base.spawned ∧ h.base.life.isAlive 3 = true ∧
      (h.base.life.thread 3).mailbox = 0 ∧
      (h.turn (.step 1 (.ok ()))).base.office.isRaised 0 .shutdown = true := by
  decide +kernel

end MediaChannels
