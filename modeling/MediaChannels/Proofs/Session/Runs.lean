import MediaChannels.Proofs.Session.FailedStart
import Mathlib.Tactic.ByContra

/-!
# Runs of a session never overlap

Threads start a session, stop it and wait for its end as often as they like, encoders are found or not, workers are
spawned or not, and those that are spawned end when they like.

* `Lifecycle.Spawned`: what is known of a worker and of the start that has spawned it.
* `SessionHistory.Sound`: the invariant of histories. `SessionHistory.Sound.turn`, `SessionHistory.Sound.run`.
* `runs_never_overlap`: a stopped session has no workers, it never has two of one role, and a start that fails leaves
  none behind.
-/

namespace MediaChannels

/-! ## Workers and the starts that have spawned them -/

namespace Lifecycle

variable {l l' : Lifecycle} {t u w : Nat} {th : SessionThread}

/-- Thread `t` has spawned worker `w`, and answers for it as long as the worker is alive. -/
structure Spawned (l : Lifecycle) (t w : Nat) : Prop where
  starter_lt : t < l.threads.size
  worker_lt : w < l.threads.size
  hasRole : ∃ role, (l.thread w).role = some role
  answersFor : l.isAlive w = true → (l.thread t).AnswersFor w

/-- One more thread changes nothing about it. -/
theorem Spawned.add (h : l.Spawned t w) : (l.add th).2.Spawned t w := by
  have hsize := l.size_add th
  have ht : (l.add th).2.thread t = l.thread t := thread_add_of_ne (Nat.ne_of_lt h.starter_lt)
  have hw : (l.add th).2.thread w = l.thread w := thread_add_of_ne (Nat.ne_of_lt h.worker_lt)
  constructor
  · rw [hsize]
    exact Nat.lt_succ_of_lt h.starter_lt
  · rw [hsize]
    exact Nat.lt_succ_of_lt h.worker_lt
  · rw [hw]
    exact h.hasRole
  · rw [isAlive, ht, hw]
    exact h.answersFor

/-- Nor does a thread that goes on. -/
theorem Spawned.moves (h : l.Spawned t w) (hm : Moves l u th l') (hgoes : (l.thread u).Goes l th) : l'.Spawned t w := by
  obtain ⟨role, hrole⟩ := h.hasRole
  have hrole' : (l'.thread w).role = some role := by
    by_cases hwu : w = u
    · rw [hwu, hm.thread_eq, hm.role_eq, ← hwu, hrole]
    · rw [hm.others w hwu, hrole]
  refine ⟨hm.size_eq ▸ h.starter_lt, hm.size_eq ▸ h.worker_lt, ⟨role, hrole'⟩, ?_⟩
  intro halive
  have hworks : l.Works role w := hm.works ⟨hrole', halive⟩
  have hanswers := h.answersFor hworks.2
  by_cases htu : t = u
  · rw [htu, hm.thread_eq]
    exact hgoes.answersFor hworks (htu ▸ hanswers)
  · rwa [hm.others t htu]

/-- Nor does a step that spawns another worker. -/
theorem Spawned.stepsTo (h : l.Spawned t w) (hto : l.StepsTo u l') : l'.Spawned t w := by
  cases hto with
  | moved hm hgoes => exact h.moves hm hgoes
  | spawned htodo _ _ hm =>
    refine h.add.moves hm ?_
    rw [thread_add_of_todo (by simp [htodo])]
    exact .register htodo

/-- A start answers for the worker that it has just spawned, as it has not failed. -/
theorem Spawned.new {role : WorkerRole} {rest : List SessionOp} {worker : SessionThread} {e : Errand} (hs : l.Sound e)
    (htodo : (l.thread t).todo = .spawn role :: rest) (hhopeful : (l.thread t).Hopeful)
    (hrole : worker.role = some role)
    (hm : Moves (l.add worker).2 t { l.thread t with todo := .register l.threads.size :: rest } l') :
    l'.Spawned t l.threads.size := by
  have hlt : t < l.threads.size := lt_size_of_todo (by simp [htodo])
  have hsize := hm.size_of_add
  obtain ⟨_, _, _, _, hpast⟩ := hs.plan_of_todo htodo
  refine ⟨by omega, by omega, ⟨role, ?_⟩, fun _ => .inl ⟨?_, ?_⟩⟩
  · rw [hm.others _ (Nat.ne_of_gt hlt), thread_add_self, hrole]
  · rw [hm.thread_eq]
    exact hhopeful (.spawn role) (by simp [htodo]) rfl
  · intro op hop
    rw [hm.thread_eq] at hop
    rcases List.mem_cons.mp hop with rfl | hop
    · rfl
    · exact hpast op hop

/-- No thread that has failed can spawn a worker later. -/
theorem StepsTo.hopeful (h : l.StepsTo t l') (hhopeful : ∀ u, (l.thread u).Hopeful) (u : Nat) :
    (l'.thread u).Hopeful := by
  cases h with
  | moved hm hgoes =>
    by_cases hu : u = t
    · rw [hu, hm.thread_eq]
      exact hgoes.hopeful (hhopeful t)
    · rw [hm.others u hu]
      exact hhopeful u
  | spawned htodo _ hanswer hm =>
    by_cases hu : u = t
    · rw [hu, hm.thread_eq]
      exact SessionThread.Goes.hopeful (l := l) (.register htodo) (hhopeful t)
    · rw [hm.others u hu]
      by_cases hnew : u = l.threads.size
      · rw [hnew, thread_add_self]
        exact fun _ _ _ => hanswer
      · rw [thread_add_of_ne hnew]
        exact hhopeful u

end Lifecycle

/-! ## The invariant of histories -/

namespace SessionHistory

variable {h : SessionHistory}

/-- The launch lock is respected, threads that have failed spawn nothing, every worker that is alive was spawned by some
start, and starts answer for their workers. -/
structure Sound (h : SessionHistory) : Prop where
  life : ∃ e, h.life.Sound e
  hopeful : ∀ t, (h.life.thread t).Hopeful
  known : ∀ role w, h.life.Works role w → ∃ t, (t, w) ∈ h.spawned
  spawned : ∀ t w, (t, w) ∈ h.spawned → h.life.Spawned t w

namespace Sound

theorem fresh (kind : ChannelKind) (mailbox : Nat) (office : Office) :
    (SessionHistory.fresh kind mailbox office).Sound := by
  have hlife : (SessionHistory.fresh kind mailbox office).life.Sound .idle := .fresh kind mailbox
  exact ⟨⟨_, hlife⟩, fun _ => nofun, fun role w hw => absurd hw (hlife.quiet rfl role w), nofun⟩

theorem call (hs : h.Sound) (c : SessionCall) : (h.turn (.call c)).Sound := by
  obtain ⟨e, hlife⟩ := hs.life
  refine ⟨⟨e, hlife.call c⟩, ?_, ?_, ?_⟩
  · intro t
    by_cases ht : t = h.life.threads.size
    · rw [turn, Lifecycle.call, ht, Lifecycle.thread_add_self]
      exact fun _ _ _ => rfl
    · rw [turn, Lifecycle.call, Lifecycle.thread_add_of_ne ht]
      exact hs.hopeful t
  · intro role w hw
    exact hs.known role w (Lifecycle.works_call hw)
  · intro t w hmem
    exact (hs.spawned t w hmem).add

theorem step (hs : h.Sound) (t : Nat) (outcome : Except Error Unit) : (h.turn (.step t outcome)).Sound := by
  obtain ⟨e, hlife⟩ := hs.life
  rw [turn]
  cases hstep : h.life.step h.office t outcome with
  | none => exact hs
  | some next =>
    obtain ⟨life, office⟩ := next
    have hrule := Lifecycle.step_eq_some_iff.mp hstep
    have hto := hlife.stepsTo hrule
    refine ⟨hlife.step hrule, hto.hopeful hs.hopeful, ?_, ?_⟩
    · intro role w hw
      rcases hto.works hw with hold | ⟨rfl, hsize⟩
      · obtain ⟨u, hmem⟩ := hs.known role w hold
        exact ⟨u, List.mem_append_left _ hmem⟩
      · exact ⟨t, List.mem_append_right _ (by simp [hsize])⟩
    · intro u w hmem
      rcases List.mem_append.mp hmem with hmem | hmem
      · exact (hs.spawned u w hmem).stepsTo hto
      cases hto with
      | moved hm _ => simp [hm.size_eq] at hmem
      | @spawned role rest worker htodo hrole _ hm =>
        obtain ⟨rfl, rfl⟩ : u = t ∧ w = h.life.threads.size := by simpa [hm.size_of_add] using hmem
        exact .new hlife htodo (hs.hopeful u) hrole hm

theorem turn (hs : h.Sound) : ∀ next, (h.turn next).Sound
  | .call c => hs.call c
  | .mail _ => ⟨hs.life, hs.hopeful, hs.known, hs.spawned⟩
  | .step t outcome => hs.step t outcome

theorem run (hs : h.Sound) (turns : List SessionTurn) : (h.run turns).Sound := by
  induction turns generalizing h with
  | nil => exact hs
  | cons next turns ih => exact ih (hs.turn next)

end Sound

end SessionHistory

/-! ## Runs -/

/-- **The runs of a session never overlap.** Whatever turns a session takes: when it is stopped, no worker is alive; at
no time are two workers of one role alive; every worker that is alive was spawned by some start; and when a start has
ended with an error, none of its workers is alive. -/
theorem runs_never_overlap (kind : ChannelKind) (mailbox : Nat) (office : Office) (turns : List SessionTurn) :
    let h := (SessionHistory.fresh kind mailbox office).run turns
    (h.life.state = .stopped → ∀ role w, ¬ h.life.Works role w) ∧
      (∀ role v w, h.life.Works role v → h.life.Works role w → v = w) ∧
      (∀ role w, h.life.Works role w → ∃ t, (t, w) ∈ h.spawned) ∧
      ∀ t w e, (t, w) ∈ h.spawned → h.life.isAlive t = false → (h.life.thread t).answer = .error e →
        h.life.isAlive w = false := by
  have hs : ((SessionHistory.fresh kind mailbox office).run turns).Sound := .run (.fresh kind mailbox office) turns
  obtain ⟨e, hlife⟩ := hs.life
  refine ⟨hlife.quiet, hlife.unique, hs.known, ?_⟩
  intro t w err hmem hended herr
  by_contra halive
  rcases (hs.spawned t w hmem).answersFor (by simpa using halive) with ⟨hok, _⟩ | ⟨op, hop, _⟩
  · rw [herr] at hok
    cases hok
  · rw [Lifecycle.isAlive_eq_false_iff.mp hended] at hop
    cases hop

/-- A start whose second worker cannot be spawned: it has to wait until the first one has ended. -/
def SessionTurn.failedStart : List SessionTurn :=
  [.call .start] ++ List.replicate 6 (.step 0 (.ok ())) ++ [.step 0 (.error (.system .outOfMemory))] ++
    List.replicate 12 (.step 0 (.ok ())) ++ [.step 1 (.ok ()), .step 1 (.ok ())] ++ List.replicate 4 (.step 0 (.ok ()))

theorem runs_never_overlap_failed_start :
    let h := (SessionHistory.fresh .audio 0 Office.empty.addMailbox.2).run SessionTurn.failedStart
    (0, 1) ∈ h.spawned ∧ h.life.isAlive 0 = false ∧ (h.life.thread 0).answer.isOk = false ∧
      h.life.isAlive 1 = false := by
  intro h
  have hspawned : (0, 1) ∈ h.spawned := by decide +kernel
  have hended : h.life.isAlive 0 = false := by decide +kernel
  have hfailed : (h.life.thread 0).answer.isOk = false := by decide +kernel
  obtain ⟨e, he⟩ : ∃ e, (h.life.thread 0).answer = .error e := by
    cases hanswer : (h.life.thread 0).answer with
    | ok => rw [hanswer] at hfailed; cases hfailed
    | error e => exact ⟨e, rfl⟩
  exact ⟨hspawned, hended, hfailed, (runs_never_overlap _ _ _ _).2.2.2 0 1 e hspawned hended he⟩

end MediaChannels
