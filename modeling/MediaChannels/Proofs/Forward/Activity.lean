import MediaChannels.Proofs.Channel.Shown
import MediaChannels.Proofs.Forward.Pulling
import MediaChannels.Proofs.Forward.Pushing

/-!
# When a channel is active

Every forwarder sets the active flag of its channel when it enters its loop and clears it when it leaves, also after a
panic. There is one flag, whatever the number of forwarders, so it tells what the last of them to enter or to leave has
done.

* `Channel.activeIn`: the flag; `Channel.activeIn_perform`, `OutsideTurn.activeIn_perform`: who changes it.
* `ForwardLoop`: a loop on either side; `ForwardLoop.activeIn_step`, `ForwardLoop.stage_step`: it sets and clears the
  flag when it enters and leaves, and at no other step.
* `ChannelScene`: any number of forwarders of one channel, with their entries and exits; `ChannelScene.Sound`: the
  invariant, which every turn keeps (`Sound.turn`).
* `active_iff_last_entered`: the channel is active if and only if the last to enter or leave has entered.
* `first_to_leave_idles`: so a channel can be idle while a forwarder is inside.
-/

namespace MediaChannels

/-! ## The flag -/

namespace Channel

variable {α : Type} {sizes : Sizes} {hv : sizes.Valid} {kind kind' : ChannelKind} {m : Memory}

/-- Whether the channel is active: what `isActive` answers. -/
def activeIn (channel : Channel) (m : Memory) : Bool := (channel.isActive.run m).1

@[simp] theorem activeIn_setActive (channel : Channel) (active : Bool) (m : Memory) :
    channel.activeIn ((channel.setActive active).run m).2 = active := by
  have hread := Memory.read_write m channel.base [if active then 1 else 0]
  rw [List.length_singleton] at hread
  rw [activeIn, run_setActive, run_isActive, hread]
  cases active <;> rfl

/-- A channel as created is idle. -/
theorem activeIn_of_fresh (h : ∀ part : ChannelPart, part.Fresh hv kind m) : (sizes.channel kind).activeIn m = false :=
  congrArg Prod.fst (shows_of_fresh h).run_isActive

/-- A program that stays away from the flag leaves it as it is. -/
theorem activeIn_of_within {p : Access α} {parts : List ChannelPart}
    (hp : p.Within (ChannelPart.Within sizes kind' parts) m) (hapart : kind' ≠ kind ∨ .active ∉ parts) :
    (sizes.channel kind).activeIn (p.run m).2 = (sizes.channel kind).activeIn m := by
  have hagree : Memory.Agree (ChannelPart.active.start sizes kind) (ChannelPart.active.stop sizes kind)
      (p.run m).2 m := ChannelPart.agree_part_of_within hp hapart
  have hread : (p.run m).2.read (sizes.channel kind).base 1 = m.read (sizes.channel kind).base 1 :=
    hagree.read _ _ (Nat.le_refl _) (Nat.le_refl _)
  simp only [activeIn, run_isActive, hread]

/-- So does a program on another part of the channel. -/
theorem activeIn_of_keeps {p : Access α} {part : ChannelPart} (hp : ChannelCall.Keeps hv kind part p m)
    (hpart : part ≠ .active) : (sizes.channel kind).activeIn (p.run m).2 = (sizes.channel kind).activeIn m :=
  activeIn_of_within (ChannelPart.within_of_mem (List.mem_singleton.2 rfl) hp.1)
    (.inr fun hmem => hpart (List.mem_singleton.1 hmem).symm)

/-- **Only a call that sets the flag changes it.** -/
theorem activeIn_perform {handle : ChannelHandle} (hready : ∀ q : ChannelPart, q.Ready hv kind m)
    (hhandle : handle.channel = sizes.channel kind) (call : ChannelCall α) :
    (sizes.channel kind).activeIn ((call.perform handle).run m).2 =
      call.activeSet?.getD ((sizes.channel kind).activeIn m) := by
  cases call with
  | isActive => rfl
  | clientIsActive => rfl
  | status => exact congrArg _ (Channel.run_status_snd _ m)
  | setActive active =>
    simp only [ChannelCall.perform, hhandle]
    exact activeIn_setActive _ active m
  | clientSetActive active =>
    simp only [ChannelCall.perform, Client.setActive, hhandle]
    exact activeIn_setActive _ active m
  | _ =>
    -- The other calls name parts that are not the flag.
    refine activeIn_of_within (ChannelCall.perform_sound hready hhandle _).1 (.inr ?_)
    simp [ChannelCall.parts]

end Channel

namespace OutsideTurn

/-- The active flag that a turn of others sets on a channel. -/
def activeSet? (kind : ChannelKind) : OutsideTurn → Option Bool
  | mail _ => none
  | ask _ k call => if k = kind then call.activeSet? else none

theorem activeIn_perform {sizes : Sizes} {hv : sizes.Valid} (kind : ChannelKind) {env : Environment}
    (h : env.Sound hv) (turn : OutsideTurn) :
    (sizes.channel kind).activeIn (turn.perform sizes env).memory =
      (turn.activeSet? kind).getD ((sizes.channel kind).activeIn env.memory) := by
  cases turn with
  | mail use => rfl
  | ask region k call =>
    rw [activeSet?]
    by_cases hk : k = kind
    · subst hk
      rw [if_pos rfl]
      exact Channel.activeIn_perform (h.ready k) rfl call
    · rw [if_neg hk]
      exact Channel.activeIn_of_within (ChannelCall.perform_sound (h.ready k) rfl call).1 (.inl hk)

end OutsideTurn

/-! ## Loops -/

/-- Where a forwarder is: it has not entered its loop yet, is inside, or has left it. -/
inductive ForwardStage where
  | outside
  | inside
  | gone
  deriving DecidableEq, Repr

/-- The entries (`true`) and exits (`false`) up to a stage. -/
def ForwardStage.marks : ForwardStage → List Bool
  | outside => []
  | inside => [true]
  | gone => [true, false]

/-- The loop of a forwarder, on either side of its channel. -/
inductive ForwardLoop where
  | push (loop : PushLoop)
  | pull (loop : PullLoop)
  deriving DecidableEq, Repr

namespace ForwardLoop

/-- A loop that has not begun. -/
def start (pulls : Bool) : ForwardLoop := if pulls then pull {} else push {}

/-- One step. -/
def step (f : Forwarder) : ForwardLoop → Environment → ForwardLoop × Environment
  | push loop, env => (push (loop.step f env).1, (loop.step f env).2)
  | pull loop, env => (pull (loop.step f env).1, (loop.step f env).2)

/-- Where the forwarder is. -/
def stage : ForwardLoop → ForwardStage
  | push { phase := .enter, .. } | pull { phase := .enter, .. } => .outside
  | push { phase := .left, .. } | pull { phase := .left, .. } => .gone
  | _ => .inside

/-- The entry or exit that the next step is. -/
def mark? : ForwardLoop → Option Bool
  | push { phase := .enter, .. } | pull { phase := .enter, .. } => some true
  | push { phase := .leave, .. } | pull { phase := .leave, .. } => some false
  | _ => none

/-- The loop after a panic: if it is inside, nothing of it is done any more but its leaving. -/
def unwound (loop : ForwardLoop) : ForwardLoop :=
  match loop.stage, loop with
  | .inside, push loop => push { loop with phase := .leave }
  | .inside, pull loop => pull { loop with phase := .leave }
  | _, loop => loop

@[simp] theorem stage_start (pulls : Bool) : (start pulls).stage = .outside := by cases pulls <;> rfl

@[simp] theorem stage_unwound (loop : ForwardLoop) : loop.unwound.stage = loop.stage := by
  cases h : loop.stage with
  | inside => cases loop <;> simp only [unwound, h] <;> rfl
  | _ => simp only [unwound, h]

variable {f : Forwarder} {sizes : Sizes} {hv : sizes.Valid} {kind : ChannelKind} {env : Environment}

/-- A step leads inside if it is an entry, out if it is an exit, and nowhere else if it is neither. -/
theorem stage_step (f : Forwarder) (loop : ForwardLoop) (env : Environment) :
    (loop.step f env).1.stage.marks = loop.stage.marks ++ loop.mark?.toList := by
  cases loop with
  | push loop =>
    obtain ⟨phase, stats⟩ := loop
    cases phase with
    | check =>
      simp only [step, PushLoop.step]
      split <;> rfl
    | bridge kinds => cases kinds <;> rfl
    | take =>
      simp only [step, PushLoop.step]
      split <;> rfl
    | idle =>
      simp only [step, PushLoop.step]
      split <;> rfl
    | hold packet =>
      simp only [step, PushLoop.step]
      split <;> rfl
    | publish packet =>
      simp only [step, PushLoop.step]
      split <;> rfl
    | more =>
      simp only [step, PushLoop.step]
      split <;> rfl
    | _ => rfl
  | pull loop =>
    obtain ⟨phase, cursor, stats, delivered⟩ := loop
    cases phase with
    | check =>
      simp only [step, PullLoop.step]
      split <;> rfl
    | fetch walk received =>
      simp only [step, PullLoop.step]
      split <;> rfl
    | decide walk =>
      simp only [step, PullLoop.step]
      split <;> rfl
    | account walk received => cases received <;> rfl
    | _ => rfl

/-- A step leaves the sizes of all parts and the order of the mailboxes alone. -/
theorem sound_step (hf : f.channel = sizes.channel kind) (h : env.Sound hv) (loop : ForwardLoop) :
    (loop.step f env).2.Sound hv := by
  cases loop with
  | push loop => exact loop.sound_step hf h
  | pull loop => exact loop.sound_step hf h

/-- **An entry sets the flag, an exit clears it, and no other step changes it.** -/
theorem activeIn_step (hf : f.channel = sizes.channel kind) (h : env.Sound hv) (loop : ForwardLoop) :
    (sizes.channel kind).activeIn (loop.step f env).2.memory =
      loop.mark?.getD ((sizes.channel kind).activeIn env.memory) := by
  have hset (active : Bool) :
      (sizes.channel kind).activeIn (env.access (f.channel.setActive active)).2.memory = active := by
    rw [hf]
    exact Channel.activeIn_setActive _ active _
  cases loop with
  | push loop =>
    have hquiet (hapart : .active ∉ loop.phase.parts) : (sizes.channel kind).activeIn (loop.step f env).2.memory =
        (sizes.channel kind).activeIn env.memory := by
      rw [loop.memory_step]
      exact Channel.activeIn_of_within (loop.program_sound hf h).1 (.inr hapart)
    obtain ⟨phase, stats⟩ := loop
    cases phase with
    | enter => exact hset true
    | bridge kinds => exact hquiet (by cases kinds <;> simp [PushPhase.parts])
    | leave => exact hset false
    | _ => exact hquiet (by simp [PushPhase.parts])
  | pull loop =>
    obtain ⟨phase, cursor, stats, delivered⟩ := loop
    cases phase with
    | enter => exact hset true
    | fetch walk received =>
      have hnext := Channel.activeIn_of_keeps (ChannelCall.keeps_next (h.ready kind) walk) (by decide)
      rw [step, PullLoop.step_fetch, hf]
      exact hnext
    | leave => exact hset false
    | _ => rfl

end ForwardLoop

/-! ## Many forwarders -/

/-- Forwarders of one channel, by the order in which they came, with their surroundings, and all entries and exits of
them in the order in which they happened. -/
structure ChannelScene where
  env : Environment
  crew : List (Forwarder × ForwardLoop) := []
  marks : List (Nat × Bool) := []

/-- What can happen: one more forwarder, a step of one, a panic in one, or a turn of others. -/
inductive SceneTurn : Type 1 where
  | join (process session : Nat) (pulls : Bool)
  | step (number : Nat)
  | unwind (number : Nat)
  | outside (turn : OutsideTurn)

/-- The active flag that a turn sets on a channel directly, which no forwarder does between its entry and its exit. -/
def SceneTurn.activeSet? (kind : ChannelKind) : SceneTurn → Option Bool
  | outside turn => turn.activeSet? kind
  | _ => none

namespace ChannelScene

variable (sizes : Sizes) (kind : ChannelKind) (s : ChannelScene)

/-- One turn. -/
def turn : SceneTurn → ChannelScene
  | .join process session pulls =>
    { s with crew := s.crew ++ [({ channel := sizes.channel kind, process, session }, .start pulls)] }
  | .step number =>
    match s.crew[number]? with
    | some (f, loop) =>
      { env := (loop.step f s.env).2
        crew := s.crew.set number (f, (loop.step f s.env).1)
        marks := s.marks ++ loop.mark?.toList.map (number, ·) }
    | none => s
  | .unwind number =>
    match s.crew[number]? with
    | some (f, loop) => { s with crew := s.crew.set number (f, loop.unwound) }
    | none => s
  | .outside turn => { s with env := turn.perform sizes s.env }

/-- Turns one after the other. -/
def run (turns : List SceneTurn) : ChannelScene := turns.foldl (turn sizes kind) s

/-- Where a forwarder is; one that has not come yet is outside. -/
def stageOf (number : Nat) : ForwardStage := (s.crew[number]?).elim .outside (·.2.stage)

/-- The entries and exits of one forwarder. -/
def marksOf (number : Nat) : List Bool := (s.marks.filter (·.1 = number)).map Prod.snd

variable {sizes kind s} {hv : sizes.Valid} {f : Forwarder} {loop loop' : ForwardLoop} {number : Nat}

theorem stageOf_of_getElem? (h : s.crew[number]? = some (f, loop)) : s.stageOf number = loop.stage := by
  rw [stageOf, h]
  rfl

/-- Only who has come can be somewhere else than outside. -/
theorem lt_of_stageOf (h : s.stageOf number ≠ .outside) : number < s.crew.length := by
  refine Nat.not_le.1 fun hle => h ?_
  rw [stageOf, List.getElem?_eq_none hle]
  rfl

/-- A forwarder comes from outside. -/
theorem stageOf_append (hloop : loop.stage = .outside) (env : Environment) (marks : List (Nat × Bool)) (n : Nat) :
    stageOf { env, crew := s.crew ++ [(f, loop)], marks } n = s.stageOf n := by
  rw [stageOf, stageOf]
  rcases Nat.lt_trichotomy n s.crew.length with hn | rfl | hn
  · rw [List.getElem?_append_left hn]
  · rw [List.getElem?_concat_length, List.getElem?_eq_none (Nat.le_refl _)]
    exact hloop
  · have hlength : (s.crew ++ [(f, loop)]).length ≤ n := by
      rw [List.length_append]
      exact hn
    rw [List.getElem?_eq_none hlength, List.getElem?_eq_none (Nat.le_of_lt hn)]

/-- Only the forwarder that has another loop now can be somewhere else. -/
theorem stageOf_set (h : s.crew[number]? = some (f, loop)) (env : Environment) (marks : List (Nat × Bool)) (n : Nat) :
    stageOf { env, crew := s.crew.set number (f, loop'), marks } n =
      if n = number then loop'.stage else s.stageOf n := by
  obtain ⟨hlt, -⟩ := List.getElem?_eq_some_iff.1 h
  by_cases hn : n = number
  · subst hn
    simp [stageOf, hlt]
  · simp [stageOf, List.getElem?_set_ne (Ne.symm hn), hn]

/-- The entries and exits of a forwarder are the last that it has made, and those before. -/
theorem marksOf_append (env : Environment) (crew : List (Forwarder × ForwardLoop)) (mark : Option Bool) (n : Nat) :
    marksOf { env, crew, marks := s.marks ++ mark.toList.map (number, ·) } n =
      s.marksOf n ++ if n = number then mark.toList else [] := by
  cases mark with
  | none => simp [marksOf]
  | some b =>
    by_cases hn : n = number
    · subst hn
      simp [marksOf]
    · simp [marksOf, hn, Ne.symm hn]

/-! ## The invariant -/

/-- What holds at any time: entries and exits are those by which every forwarder came where it is, and the channel is
active as the last of them left it. -/
structure Sound (hv : sizes.Valid) (kind : ChannelKind) (s : ChannelScene) : Prop where
  env : s.env.Sound hv
  channel_eq : ∀ f loop, (f, loop) ∈ s.crew → f.channel = sizes.channel kind
  marksOf_eq : ∀ number, s.marksOf number = (s.stageOf number).marks
  active_eq : (sizes.channel kind).activeIn s.env.memory = (s.marks.getLast?.map Prod.snd).getD false

namespace Sound

theorem start {env : Environment} (henv : env.Sound hv) (hidle : (sizes.channel kind).activeIn env.memory = false) :
    Sound hv kind { env } :=
  ⟨henv, fun _ _ hmem => absurd hmem List.not_mem_nil, fun _ => rfl, hidle⟩

/-- One more forwarder keeps the invariant. -/
theorem join (h : Sound hv kind s) (process session : Nat) (pulls : Bool) :
    Sound hv kind (s.turn sizes kind (.join process session pulls)) := by
  refine ⟨h.env, fun f loop hmem => ?_, fun n => ?_, h.active_eq⟩
  · rcases List.mem_append.1 hmem with hmem | hmem
    · exact h.channel_eq f loop hmem
    · obtain ⟨rfl, -⟩ := Prod.mk.inj (List.mem_singleton.1 hmem)
      rfl
  · exact (h.marksOf_eq n).trans (congrArg _ (stageOf_append (ForwardLoop.stage_start pulls) s.env s.marks n).symm)

/-- **So does a step of a forwarder.** -/
theorem step (h : Sound hv kind s) (number : Nat) : Sound hv kind (s.turn sizes kind (.step number)) := by
  cases hget : s.crew[number]? with
  | none =>
    simp only [turn, hget]
    exact h
  | some member =>
    obtain ⟨f, loop⟩ := member
    simp only [turn, hget]
    have hf : f.channel = sizes.channel kind := h.channel_eq f loop (List.mem_of_getElem? hget)
    refine ⟨loop.sound_step hf h.env, fun f' loop' hmem => ?_, fun n => ?_, ?_⟩
    · rcases List.mem_or_eq_of_mem_set hmem with hmem | heq
      · exact h.channel_eq f' loop' hmem
      · obtain ⟨rfl, -⟩ := Prod.mk.inj heq
        exact hf
    · rw [marksOf_append, stageOf_set hget, h.marksOf_eq]
      by_cases hn : n = number
      · rw [if_pos hn, if_pos hn, hn, stageOf_of_getElem? hget, loop.stage_step f s.env]
      · rw [if_neg hn, if_neg hn, List.append_nil]
    · rw [loop.activeIn_step hf h.env, h.active_eq]
      generalize loop.mark? = mark
      cases mark <;> simp

/-- **So does a panic**, which only puts the exit next. -/
theorem unwind (h : Sound hv kind s) (number : Nat) : Sound hv kind (s.turn sizes kind (.unwind number)) := by
  cases hget : s.crew[number]? with
  | none =>
    simp only [turn, hget]
    exact h
  | some member =>
    obtain ⟨f, loop⟩ := member
    simp only [turn, hget]
    refine ⟨h.env, fun f' loop' hmem => ?_, fun n => ?_, h.active_eq⟩
    · rcases List.mem_or_eq_of_mem_set hmem with hmem | heq
      · exact h.channel_eq f' loop' hmem
      · obtain ⟨rfl, -⟩ := Prod.mk.inj heq
        exact h.channel_eq f' loop (List.mem_of_getElem? hget)
    · refine (h.marksOf_eq n).trans (congrArg ForwardStage.marks ?_)
      rw [stageOf_set hget, loop.stage_unwound]
      by_cases hn : n = number
      · rw [if_pos hn, hn, stageOf_of_getElem? hget]
      · rw [if_neg hn]

/-- So does a turn of others that leaves the flag alone. -/
theorem outside (h : Sound hv kind s) {turn : OutsideTurn} (hturn : turn.activeSet? kind = none) :
    Sound hv kind (s.turn sizes kind (.outside turn)) := by
  refine ⟨h.env.outside turn, h.channel_eq, h.marksOf_eq, ?_⟩
  have hactive := turn.activeIn_perform kind h.env
  rw [hturn, Option.getD_none] at hactive
  exact hactive.trans h.active_eq

/-- **Whatever happens, the invariant is kept.** -/
theorem turn (h : Sound hv kind s) {turn : SceneTurn} (hturn : turn.activeSet? kind = none) :
    Sound hv kind (s.turn sizes kind turn) := by
  cases turn with
  | join process session pulls => exact h.join process session pulls
  | step number => exact h.step number
  | unwind number => exact h.unwind number
  | outside turn => exact h.outside hturn

/-- So it holds at any time. -/
theorem run (h : Sound hv kind s) {turns : List SceneTurn} (hturns : ∀ turn ∈ turns, turn.activeSet? kind = none) :
    Sound hv kind (s.run sizes kind turns) := by
  induction turns generalizing s with
  | nil => exact h
  | cons turn rest ih =>
    obtain ⟨hturn, hrest⟩ := List.forall_mem_cons.1 hturns
    exact ih (h.turn hturn) hrest

end Sound

/-! ## What the invariant says -/

namespace Sound

/-- A forwarder is inside if and only if the last thing that it did at its door was to enter. -/
theorem inside_iff (h : Sound hv kind s) (number : Nat) :
    s.stageOf number = .inside ↔ (s.marksOf number).getLast? = some true := by
  rw [h.marksOf_eq]
  cases s.stageOf number <;> decide

/-- If the last to enter or leave has entered, it is inside. -/
theorem inside_of_getLast? (h : Sound hv kind s) (hlast : s.marks.getLast? = some (number, true)) :
    s.stageOf number = .inside := by
  obtain ⟨earlier, hmarks⟩ := List.getLast?_eq_some_iff.1 hlast
  rw [h.inside_iff, marksOf, hmarks]
  simp

theorem active_iff (h : Sound hv kind s) :
    (sizes.channel kind).activeIn s.env.memory = true ↔ ∃ number, s.marks.getLast? = some (number, true) := by
  rw [h.active_eq]
  cases s.marks.getLast? <;> simp [Prod.ext_iff]

/-- **A channel on which nobody is inside is idle.** -/
theorem idle_of_empty (h : Sound hv kind s) (hempty : ∀ number, s.stageOf number ≠ .inside) :
    (sizes.channel kind).activeIn s.env.memory = false := by
  rw [← Bool.not_eq_true, h.active_iff]
  rintro ⟨number, hlast⟩
  exact hempty number (h.inside_of_getLast? hlast)

/-- **A channel is idle while a forwarder is inside if and only if another has left since, and was the last to enter or
leave.** -/
theorem idle_iff (h : Sound hv kind s) (hinside : s.stageOf number = .inside) :
    (sizes.channel kind).activeIn s.env.memory = false ↔ ∃ other ≠ number, ∃ earlier between,
      s.marks = earlier ++ (number, true) :: between ++ [(other, false)] := by
  have hown := (h.inside_iff number).1 hinside
  constructor
  · intro hidle
    have hentered : (number, true) ∈ s.marks := by
      obtain ⟨mark, hmem, hmark⟩ := List.mem_map.1 (List.mem_of_getLast? hown)
      obtain ⟨hmem, hnumber⟩ := List.mem_filter.1 hmem
      rwa [← of_decide_eq_true hnumber, ← hmark]
    obtain ⟨earlier, later, hmarks⟩ := List.append_of_mem hentered
    rcases List.eq_nil_or_concat later with rfl | ⟨between, ⟨other, entered⟩, rfl⟩
    · -- Nobody has entered or left since, so the channel is active.
      have hlast : s.marks.getLast? = some (number, true) := by rw [hmarks, List.getLast?_concat]
      exact absurd (h.active_iff.2 ⟨number, hlast⟩) (by simp [hidle])
    · have hmarks' : s.marks = earlier ++ (number, true) :: between ++ [(other, entered)] := by simp [hmarks]
      obtain rfl : entered = false := by
        rw [h.active_eq, hmarks', List.getLast?_concat] at hidle
        exact hidle
      refine ⟨other, ?_, earlier, between, hmarks'⟩
      rintro rfl
      rw [marksOf, hmarks', List.filter_append, List.map_append, List.getLast?_append] at hown
      simp at hown
  · rintro ⟨other, -, earlier, between, hmarks⟩
    rw [h.active_eq, hmarks, List.getLast?_concat]
    rfl

/-- **With one forwarder, a channel is active if and only if it is inside.** -/
theorem active_iff_of_single (h : Sound hv kind s) (hsingle : s.crew.length ≤ 1) :
    (sizes.channel kind).activeIn s.env.memory = true ↔ s.stageOf 0 = .inside := by
  have hzero {number : Nat} (hstage : s.stageOf number ≠ .outside) : number = 0 :=
    Nat.lt_one_iff.1 (Nat.lt_of_lt_of_le (lt_of_stageOf hstage) hsingle)
  constructor
  · intro hactive
    obtain ⟨number, hlast⟩ := h.active_iff.1 hactive
    have hinside := h.inside_of_getLast? hlast
    have hnumber : number = 0 := hzero (by simp [hinside])
    rwa [hnumber] at hinside
  · intro hinside
    rw [← Bool.not_eq_false, h.idle_iff hinside]
    rintro ⟨other, hne, earlier, between, hmarks⟩
    -- There is no other that could have left.
    refine hne (hzero fun houtside => ?_)
    have hnone := h.marksOf_eq other
    rw [houtside, marksOf, hmarks, List.filter_append] at hnone
    simp [ForwardStage.marks] at hnone

end Sound

end ChannelScene

/-- **A channel is active if and only if the last of its forwarders to enter or leave has entered.** Let any number of
forwarders, on either side and of any processes, come to an idle channel. They enter and leave their loops in any order,
also after a panic, and others do what they like, except that nobody else sets the flag. Then at any time

* the channel is active if and only if the last entry or exit was an entry, and the entries and exits of each forwarder
  are those that lead to where it is;
* it is idle if nobody is inside;
* while a forwarder is inside, the channel is idle if and only if another has left since then and nobody has entered or
  left after that;
* if there is only one forwarder, the channel is active if and only if it is inside. -/
theorem active_iff_last_entered {sizes : Sizes} {hv : sizes.Valid} {kind : ChannelKind} {env : Environment}
    (henv : env.Sound hv) (hidle : (sizes.channel kind).activeIn env.memory = false) {turns : List SceneTurn}
    (hturns : ∀ turn ∈ turns, turn.activeSet? kind = none) :
    let s := ChannelScene.run sizes kind { env } turns
    let active := (sizes.channel kind).activeIn s.env.memory
    (active = true ↔ ∃ number, s.marks.getLast? = some (number, true)) ∧
    (∀ number, s.marksOf number = (s.stageOf number).marks) ∧
    ((∀ number, s.stageOf number ≠ .inside) → active = false) ∧
    (∀ number, s.stageOf number = .inside →
      (active = false ↔ ∃ other ≠ number, ∃ earlier between,
        s.marks = earlier ++ (number, true) :: between ++ [(other, false)])) ∧
    (s.crew.length ≤ 1 → (active = true ↔ s.stageOf 0 = .inside)) := by
  intro s active
  have hs : ChannelScene.Sound hv kind s := (ChannelScene.Sound.start henv hidle).run hturns
  exact ⟨hs.active_iff, hs.marksOf_eq, hs.idle_of_empty, fun number => hs.idle_iff, hs.active_iff_of_single⟩

/-- A second forwarder enters, panics and leaves; the channel is active again when a third enters. -/
theorem active_iff_last_entered_again :
    let sizes : Sizes := { queueSize := 1, slotSize := 1, eventSlots := 1 }
    let env : Environment :=
      { memory := ((Segment.init sizes (.of sizes)).run .zeroed).2
        office := (Office.addMailbox (Office.addMailbox .empty).2).2 }
    let turns : List SceneTurn :=
      [.join 0 1 false, .step 0, .join 0 1 true, .step 1, .unwind 1, .step 1, .join 0 1 true, .step 2]
    let s := ChannelScene.run sizes .video0 { env } turns
    ∃ hv : sizes.Valid, env.Sound hv ∧ (sizes.channel .video0).activeIn env.memory = false ∧
      (∀ turn ∈ turns, turn.activeSet? .video0 = none) ∧
      s.marks = [(0, true), (1, true), (1, false), (2, true)] ∧ s.stageOf 1 = .gone ∧
      (sizes.channel .video0).activeIn s.env.memory = true := by
  intro sizes env turns s
  have hv : sizes.Valid := Sizes.check_eq_ok_iff.1 rfl
  have henv : env.Sound hv := .init hv Office.orderly_empty.addMailbox.addMailbox
  have hidle : (sizes.channel .video0).activeIn env.memory = false :=
    Channel.activeIn_of_fresh (Segment.fresh_init hv .video0)
  have hturns : ∀ turn ∈ turns, turn.activeSet? .video0 = none := by simp [turns, SceneTurn.activeSet?]
  obtain ⟨hactive, -, -, -, -⟩ := active_iff_last_entered henv hidle hturns
  have hmarks : s.marks = [(0, true), (1, true), (1, false), (2, true)] ∧ s.stageOf 1 = .gone := by decide +kernel
  refine ⟨hv, henv, hidle, hturns, hmarks.1, hmarks.2, hactive.2 ⟨2, ?_⟩⟩
  show s.marks.getLast? = some (2, true)
  rw [hmarks.1]
  rfl

/-- One process pushes and another pulls. When the second is told to stop, the channel is idle, and the first is still
inside. -/
theorem first_to_leave_idles :
    let sizes : Sizes := { queueSize := 1, slotSize := 1, eventSlots := 1 }
    let env : Environment :=
      { memory := ((Segment.init sizes (.of sizes)).run .zeroed).2
        office := (Office.addMailbox (Office.addMailbox (Office.addMailbox (Office.addMailbox .empty).2).2).2).2 }
    let turns : List SceneTurn :=
      [.join 0 1 false, .step 0, .join 2 3 true, .step 1, .outside (.mail (.event 3 .flag MailKey.shutdown.text)),
        .outside (.mail (.raise .flag 0 true)), .step 1, .step 1]
    let s := ChannelScene.run sizes .video0 { env } turns
    ∃ hv : sizes.Valid, env.Sound hv ∧ (sizes.channel .video0).activeIn env.memory = false ∧
      (∀ turn ∈ turns, turn.activeSet? .video0 = none) ∧
      s.stageOf 0 = .inside ∧ s.stageOf 1 = .gone ∧ (sizes.channel .video0).activeIn s.env.memory = false := by
  intro sizes env turns s
  have hv : sizes.Valid := Sizes.check_eq_ok_iff.1 rfl
  have henv : env.Sound hv := .init hv Office.orderly_empty.addMailbox.addMailbox.addMailbox.addMailbox
  have hturns : ∀ turn ∈ turns, turn.activeSet? .video0 = none := by
    simp [turns, SceneTurn.activeSet?, OutsideTurn.activeSet?]
  exact ⟨hv, henv, Channel.activeIn_of_fresh (Segment.fresh_init hv .video0), hturns, by decide +kernel⟩

end MediaChannels
