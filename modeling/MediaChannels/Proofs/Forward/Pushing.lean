import MediaChannels.Proofs.Forward.Bridge
import MediaChannels.Proofs.Forward.Surroundings

/-!
# Pushing loses nothing

A push loop takes packets out of its queue and offers each of them to the ring, while others use the mailboxes and the
channels as they like. Nothing that it takes is reordered, doubled or lost, but for the packet in hand when it is told
to stop.

* `PushLoop.office_step`, `PushLoop.memory_step`, `PushLoop.program_sound`: what a step can do to mailboxes and bytes.
  `PushLoop.isStopped_step`, `PushLoop.closed_step`: a loop neither tells itself to stop nor closes its queue.
* `PushLoop.nextPopped`, `PushLoop.nextOffer`: what a step takes from the queue and offers to the ring.
  `PushLoop.inHand_step`, `PushLoop.pending_step`, `PushLoop.publishes_step`: what becomes of packets in a step.
* `PushHistory`: all that a loop has taken and offered, turn by turn; `PushHistory.Sound`: the invariant, which a step
  of the loop (`Sound.step`) and a turn of others (`Sound.outside`) keep.
* `PushHistory.offers_run_of_stopped`: once the loop is told to stop, at most one more packet is offered.
* `packets_pushed_in_order`: what follows for every run.
-/

namespace MediaChannels

namespace PushPhase

/-- The packet that was taken from the queue and neither offered to the ring nor dropped yet. -/
def inHand : PushPhase → Option Packet
  | hold packet | publish packet => some packet
  | _ => none

/-- The loop has to look whether to stop before it takes another packet, or has ended. -/
def isEnding : PushPhase → Bool
  | check | leave | left => true
  | _ => false

/-- The loop is about to clear the active flag, or has ended. -/
def isLeaving : PushPhase → Bool
  | leave | left => true
  | _ => false

/-- The packets that the loop offers before it looks whether to stop. -/
def due : PushPhase → Nat
  | publish _ => 1
  | _ => 0

theorem due_le_one (phase : PushPhase) : phase.due ≤ 1 := by cases phase <;> simp [due]

/-- The parts of the channel that the next step works on. -/
def parts : PushPhase → List ChannelPart
  | enter | leave => [.active]
  | bridge (kind :: _) => [.lane kind]
  | publish _ => [.packets]
  | _ => []

end PushPhase

namespace PushLoop

variable {f : Forwarder} {l : PushLoop} {stats : ForwardStats} {env : Environment} {sizes : Sizes} {hv : sizes.Valid}
  {kind : ChannelKind} {torn : Nat → Bool} {start : Nat} {packets : List Packet}

/-- The packet that the next step takes from the queue. -/
def nextPopped (f : Forwarder) (l : PushLoop) (env : Environment) : Option Packet :=
  match l.phase with
  | .take | .more => (pop f env).1
  | _ => none

/-- The packet that the next step offers to the ring, and whether the ring takes it. -/
def nextOffer (f : Forwarder) (l : PushLoop) (env : Environment) : Option (Packet × Bool) :=
  match l.phase with
  | .publish packet => some (packet, ((f.channel.packets.push packet).run env.memory).1.isOk)
  | _ => none

/-! ## Steps that branch on what they find -/

theorem step_take (f : Forwarder) (stats : ForwardStats) (env : Environment) :
    step f { phase := .take, stats } env =
      ({ phase := (pop f env).1.elim .idle .hold, stats }, (pop f env).2) := by
  simp only [step]
  generalize pop f env = result
  obtain ⟨packet, env'⟩ := result
  cases packet <;> rfl

theorem step_more (f : Forwarder) (stats : ForwardStats) (env : Environment) :
    step f { phase := .more, stats } env =
      ({ phase := (pop f env).1.elim .check .hold, stats }, (pop f env).2) := by
  simp only [step]
  generalize pop f env = result
  obtain ⟨packet, env'⟩ := result
  cases packet <;> rfl

theorem step_publish (f : Forwarder) (packet : Packet) (stats : ForwardStats) (env : Environment) :
    step f { phase := .publish packet, stats } env =
      ({ phase := .more
         stats := if ((f.channel.packets.push packet).run env.memory).1.isOk
           then { stats with forwarded := stats.forwarded + 1 } else { stats with rejected := stats.rejected + 1 } },
        (env.access (f.channel.packets.push packet)).2) := by
  simp only [step, Environment.access]
  cases ((f.channel.packets.push packet).run env.memory).1 <;> rfl

/-! ## What a step does to mailboxes -/

/-- A step leaves the mailboxes alone, bridges a kind of events, takes from the queue, or asks for the queue. -/
theorem office_step (f : Forwarder) (l : PushLoop) (env : Environment) :
    (step f l env).2.office = env.office ∨ (∃ k, (step f l env).2.office = (f.bridge k env).2.office) ∨
      (step f l env).2.office = (pop f env).2.office ∨ (step f l env).2.office = (f.queue env.office).2 := by
  obtain ⟨phase, stats⟩ := l
  cases phase with
  | bridge kinds =>
    cases kinds with
    | nil => exact .inl rfl
    | cons k rest => exact .inr (.inl ⟨k, rfl⟩)
  | take =>
    rw [step_take]
    exact .inr (.inr (.inl rfl))
  | idle => exact .inr (.inr (.inr rfl))
  | publish packet =>
    rw [step_publish]
    exact .inl rfl
  | more =>
    rw [step_more]
    exact .inr (.inr (.inl rfl))
  | _ => exact .inl rfl

theorem extends_step (f : Forwarder) (l : PushLoop) (env : Environment) :
    env.office.Extends (step f l env).2.office := by
  rcases office_step f l env with h | ⟨k, h⟩ | h | h <;> rw [h]
  · exact .refl _
  · exact f.extends_bridge k env
  · exact extends_pop f env
  · exact Forwarder.extends_queue _

theorem orderly_step (ho : env.office.Orderly) (l : PushLoop) : (step f l env).2.office.Orderly := by
  rcases office_step f l env with h | ⟨k, h⟩ | h | h <;> rw [h]
  · exact ho
  · exact Forwarder.orderly_bridge ho k
  · exact orderly_pop ho
  · exact Forwarder.orderly_queue ho

/-- **A push loop does not tell itself to stop.** -/
theorem isStopped_step (ho : env.office.Orderly) (l : PushLoop) :
    f.isStopped (step f l env).2.office = f.isStopped env.office := by
  rcases office_step f l env with h | ⟨k, h⟩ | h | h <;> rw [h]
  · exact Forwarder.isStopped_bridge ho k
  · exact isStopped_pop f env
  · exact f.isStopped_queue _

/-- **A push loop does not close its queue.** -/
theorem closed_step (ho : env.office.Orderly) (l : PushLoop) :
    (f.incoming (step f l env).2.office).closed = (f.incoming env.office).closed := by
  rcases office_step f l env with h | ⟨k, h⟩ | h | h <;> rw [h]
  · rw [f.incoming_bridge]
  · rw [incoming_pop ho, Queue.closed_tryPop]
  · rw [f.incoming_queue]

/-- What a step does not take remains in the queue, in its order. -/
theorem pending_step (h : env.office.Orderly) (l : PushLoop) :
    (l.nextPopped f env).toList ++ (f.incoming (step f l env).2.office).pending = (f.incoming env.office).pending := by
  have hpop : (pop f env).1.toList ++ (f.incoming (pop f env).2.office).pending = (f.incoming env.office).pending := by
    rw [pop_fst, incoming_pop h, Queue.tryPop_append_pending]
  obtain ⟨phase, stats⟩ := l
  cases phase with
  | bridge kinds =>
    cases kinds with
    | nil => rfl
    | cons k rest => exact congrArg Queue.pending (f.incoming_bridge k env)
  | take =>
    rw [step_take]
    exact hpop
  | idle => exact congrArg Queue.pending (f.incoming_queue _)
  | publish packet =>
    rw [step_publish]
    rfl
  | more =>
    rw [step_more]
    exact hpop
  | _ => rfl

/-! ## What a step does to bytes -/

/-- What the next step does on the channel. -/
def program (f : Forwarder) (l : PushLoop) : Access Unit :=
  match l.phase with
  | .enter => f.channel.setActive true
  | .bridge (kind :: _) => do
    let _ ← f.channel.events.latest kind
  | .publish packet => do
    let _ ← f.channel.packets.push packet
  | .leave => f.channel.setActive false
  | _ => pure ()

theorem memory_step (f : Forwarder) (l : PushLoop) (env : Environment) :
    (step f l env).2.memory = ((l.program f).run env.memory).2 := by
  obtain ⟨phase, stats⟩ := l
  cases phase with
  | bridge kinds =>
    cases kinds with
    | nil => rfl
    | cons k rest =>
      rw [program, Access.run_bind]
      exact f.memory_bridge k env
  | take =>
    rw [step_take]
    rfl
  | publish packet =>
    rw [step_publish, program, Access.run_bind]
    rfl
  | more =>
    rw [step_more]
    rfl
  | _ => rfl

/-- A step works on one part of the channel at most, and all parts go on carrying their sizes. -/
theorem program_sound (hf : f.channel = sizes.channel kind) (h : env.Sound hv) (l : PushLoop) :
    (l.program f).Within (ChannelPart.Within sizes kind l.phase.parts) env.memory ∧
      ∀ q : ChannelPart, q.Ready hv kind ((l.program f).run env.memory).2 := by
  have hready := h.ready kind
  have hself {q : ChannelPart} : q ∈ [q] := List.mem_singleton.2 rfl
  obtain ⟨phase, stats⟩ := l
  cases phase with
  | enter =>
    rw [program, hf]
    exact (ChannelCall.keeps_setActive true).sound hready hself
  | bridge kinds =>
    cases kinds with
    | nil => exact ⟨Access.within_pure _ _, hready⟩
    | cons k rest =>
      rw [program, hf]
      exact ((ChannelCall.keeps_latest hready k).map _).sound hready hself
  | publish packet =>
    rw [program, hf]
    exact ((ChannelCall.keeps_pushPacket hready packet).map _).sound hready hself
  | leave =>
    rw [program, hf]
    exact (ChannelCall.keeps_setActive false).sound hready hself
  | _ => exact ⟨Access.within_pure _ _, hready⟩

/-- A step leaves the sizes of all parts and the order of the mailboxes alone. -/
theorem sound_step (hf : f.channel = sizes.channel kind) (h : env.Sound hv) (l : PushLoop) :
    (step f l env).2.Sound hv := by
  have haccess := h.access (l.program_sound hf h)
  refine ⟨fun k part => ?_, l.orderly_step h.orderly⟩
  rw [memory_step]
  exact haccess.ready k part

/-- **A step publishes the packet that it offers, if the ring takes it.** -/
theorem publishes_step (hf : f.channel = sizes.channel kind) (h : env.Sound hv)
    (hring : (sizes.channel kind).packets.Publishes hv.geometry torn start packets env.memory) (l : PushLoop) :
    (sizes.channel kind).packets.Publishes hv.geometry torn start
      (PacketRing.epoch (packets ++ ((l.nextOffer f env).toList.filter (·.2)).map Prod.fst))
      (step f l env).2.memory := by
  have hquiet (hoffer : l.nextOffer f env = none) (hapart : .packets ∉ l.phase.parts) :
      (sizes.channel kind).packets.Publishes hv.geometry torn start
        (PacketRing.epoch (packets ++ ((l.nextOffer f env).toList.filter (·.2)).map Prod.fst))
        (step f l env).2.memory := by
    rw [memory_step, hoffer, Option.toList_none, List.filter_nil, List.map_nil, List.append_nil,
      PacketRing.epoch_of_lt hring.length_lt]
    exact hring.of_within (l.program_sound hf h).1 (.inr hapart)
  obtain ⟨phase, stats⟩ := l
  cases phase with
  | publish packet =>
    have hanswer := hring.setUp.isOk_push packet
    have hoffer := hring.offer packet
    rw [step_publish]
    simp only [nextOffer, Option.toList_some, hf, hanswer]
    by_cases hp : packet.data.length ≤ hv.geometry.slotSize
    · rw [List.filter_cons_of_pos (by simpa using hp)] at hoffer ⊢
      exact hoffer
    · rw [List.filter_cons_of_neg (by simpa using hp)] at hoffer ⊢
      exact hoffer
  | bridge kinds => exact hquiet rfl (by cases kinds <;> simp [PushPhase.parts])
  | _ => exact hquiet rfl (by simp [PushPhase.parts])

/-! ## What a step does with packets -/

/-- **A packet in hand, or taken now, is offered or kept in hand.** It is dropped only if the loop is told to stop. -/
theorem inHand_step (f : Forwarder) (l : PushLoop) (env : Environment) :
    l.phase.inHand.toList ++ (l.nextPopped f env).toList =
        (l.nextOffer f env).toList.map Prod.fst ++ (step f l env).1.phase.inHand.toList ∨
      ∃ packet, l.phase = .hold packet ∧ f.isStopped env.office = true ∧ (step f l env).1.phase = .check := by
  obtain ⟨phase, stats⟩ := l
  cases phase with
  | check =>
    left
    simp only [step, nextPopped, nextOffer]
    split <;> rfl
  | bridge kinds => cases kinds <;> exact .inl rfl
  | take =>
    rw [step_take]
    left
    simp only [nextPopped, nextOffer]
    cases (pop f env).1 <;> rfl
  | idle =>
    left
    simp only [step, nextPopped, nextOffer]
    split <;> rfl
  | hold packet =>
    cases hs : f.isStopped env.office with
    | true => exact .inr ⟨packet, rfl, rfl, by rw [step_hold_of_stopped hs]⟩
    | false =>
      left
      simp only [step, nextPopped, nextOffer, hs]
      rfl
  | publish packet =>
    rw [step_publish]
    exact .inl rfl
  | more =>
    rw [step_more]
    left
    simp only [nextPopped, nextOffer]
    cases (pop f env).1 <;> rfl
  | _ => exact .inl rfl

/-- The counters follow what the ring takes and refuses. -/
theorem stats_step (f : Forwarder) (l : PushLoop) (env : Environment) :
    (step f l env).1.stats.forwarded = l.stats.forwarded + ((l.nextOffer f env).toList.filter (·.2)).length ∧
      (step f l env).1.stats.rejected = l.stats.rejected + ((l.nextOffer f env).toList.filter (!·.2)).length := by
  obtain ⟨phase, stats⟩ := l
  cases phase with
  | bridge kinds => cases kinds <;> exact ⟨rfl, rfl⟩
  | take =>
    rw [step_take]
    exact ⟨rfl, rfl⟩
  | publish packet =>
    rw [step_publish]
    simp only [nextOffer]
    cases ((f.channel.packets.push packet).run env.memory).1.isOk <;> exact ⟨rfl, rfl⟩
  | more =>
    rw [step_more]
    exact ⟨rfl, rfl⟩
  | _ => exact ⟨rfl, rfl⟩

/-- The ring takes what fits. -/
theorem nextOffer_snd (hf : f.channel = sizes.channel kind) (h : env.Sound hv) {l : PushLoop} {offer : Packet × Bool}
    (ho : l.nextOffer f env = some offer) : offer.2 = decide (offer.1.data.length ≤ sizes.slotSize) := by
  have hring : (sizes.channel kind).packets.SetUp hv.geometry env.memory := h.ready kind .packets
  obtain ⟨phase, stats⟩ := l
  cases phase with
  | publish packet =>
    cases ho
    rw [hf]
    exact hring.isOk_push packet
  | _ => cases ho

/-- A loop that is told to stop and has no packet in hand takes and offers nothing more. -/
theorem isEnding_step {l : PushLoop} (hs : f.isStopped env.office = true) (hl : l.phase.isEnding = true) :
    l.nextPopped f env = none ∧ l.nextOffer f env = none ∧ (step f l env).1.phase.isEnding = true := by
  obtain ⟨phase, stats⟩ := l
  cases phase with
  | check =>
    simp only [step, hs]
    exact ⟨rfl, rfl, rfl⟩
  | leave => exact ⟨rfl, rfl, rfl⟩
  | left => exact ⟨rfl, rfl, rfl⟩
  | _ => cases hl

/-- A loop that is told to stop offers what is due, and no packet becomes due. -/
theorem due_step (hs : f.isStopped env.office = true) (l : PushLoop) :
    (l.nextOffer f env).toList.length + (step f l env).1.phase.due ≤ l.phase.due := by
  obtain ⟨phase, stats⟩ := l
  cases phase with
  | check =>
    simp only [step, hs]
    exact Nat.le_refl _
  | bridge kinds => cases kinds <;> exact Nat.le_refl _
  | take =>
    rw [step_take]
    dsimp only
    cases (pop f env).1 <;> exact Nat.le_refl _
  | idle =>
    simp only [step]
    split <;> exact Nat.le_refl _
  | hold packet =>
    rw [step_hold_of_stopped hs]
    exact Nat.le_refl _
  | publish packet =>
    rw [step_publish]
    exact Nat.le_refl _
  | more =>
    rw [step_more]
    dsimp only
    cases (pop f env).1 <;> exact Nat.le_refl _
  | _ => exact Nat.le_refl _

/-- **A loop begins to leave only if it is told to stop, or if its queue is closed.** -/
theorem isLeaving_step {l : PushLoop} (hl : (step f l env).1.phase.isLeaving = true) :
    l.phase.isLeaving = true ∨ f.isStopped env.office = true ∨ (f.incoming env.office).closed = true := by
  obtain ⟨phase, stats⟩ := l
  cases phase with
  | check =>
    cases hs : f.isStopped env.office with
    | true => exact .inr (.inl rfl)
    | false =>
      simp only [step, hs] at hl
      cases hl
  | bridge kinds => cases kinds <;> cases hl
  | take =>
    rw [step_take] at hl
    dsimp only at hl
    cases hpop : (pop f env).1 <;> rw [hpop] at hl <;> cases hl
  | idle =>
    simp only [step, f.queue_eq] at hl
    cases hc : (f.incoming env.office).closed with
    | true => exact .inr (.inr rfl)
    | false =>
      rw [hc] at hl
      cases hl
  | hold packet =>
    simp only [step] at hl
    cases hs : f.isStopped env.office <;> rw [hs] at hl <;> cases hl
  | publish packet =>
    rw [step_publish] at hl
    cases hl
  | more =>
    rw [step_more] at hl
    dsimp only at hl
    cases hpop : (pop f env).1 <;> rw [hpop] at hl <;> cases hl
  | leave => exact .inl rfl
  | left => exact .inl rfl
  | enter => cases hl

end PushLoop

/-! ## Runs -/

/-- A push loop with its surroundings, and what has become of packets since it was started. -/
structure PushHistory where
  loop : PushLoop := {}
  env : Environment
  /-- What was pending in the queue at the start, and what was pushed into it since. -/
  queued : List Packet
  /-- What the loop has taken from the queue. -/
  popped : List Packet := []
  /-- What the loop has offered to the ring, and whether the ring took it. -/
  offers : List (Packet × Bool) := []

namespace PushHistory

/-- A loop that is about to start. -/
def start (f : Forwarder) (env : Environment) : PushHistory := { env, queued := (f.incoming env.office).pending }

/-- The packets that the ring took. -/
def published (h : PushHistory) : List Packet := (h.offers.filter (·.2)).map Prod.fst

/-- The packets that the ring refused. -/
def refused (h : PushHistory) : List Packet := (h.offers.filter (!·.2)).map Prod.fst

variable (f : Forwarder) (sizes : Sizes) (h : PushHistory)

/-- One turn. -/
def turn : ForwardTurn → PushHistory
  | .step =>
    { loop := (h.loop.step f h.env).1
      env := (h.loop.step f h.env).2
      queued := h.queued
      popped := h.popped ++ (h.loop.nextPopped f h.env).toList
      offers := h.offers ++ (h.loop.nextOffer f h.env).toList }
  | .outside turn => { h with env := turn.perform sizes h.env, queued := h.queued ++ turn.queued f h.env }

/-- Turns one after the other. -/
def run (turns : List ForwardTurn) : PushHistory := turns.foldl (turn f sizes) h

variable {f sizes h} {hv : sizes.Valid} {kind : ChannelKind} {torn : Nat → Bool} {first : Nat} {before : List Packet}

/-- What holds at any time of a run on a ring in which so many packets were published before. -/
structure Sound (f : Forwarder) (hv : sizes.Valid) (kind : ChannelKind) (torn : Nat → Bool) (first : Nat)
    (before : List Packet) (h : PushHistory) : Prop where
  env : h.env.Sound hv
  ring : (sizes.channel kind).packets.Publishes hv.geometry torn first (PacketRing.epoch (before ++ h.published))
    h.env.memory
  answers : ∀ offer ∈ h.offers, offer.2 = decide (offer.1.data.length ≤ sizes.slotSize)
  /-- What was taken was offered or is in hand, or the last of it was dropped after the loop was told to stop. -/
  fate : h.popped = h.offers.map Prod.fst ++ h.loop.phase.inHand.toList ∨
    (∃ dropped, h.popped = h.offers.map Prod.fst ++ [dropped]) ∧ f.isStopped h.env.office = true ∧
      h.loop.phase.isEnding = true
  order : (h.popped ++ (f.incoming h.env.office).pending).Sublist h.queued
  forwarded_eq : h.loop.stats.forwarded = h.published.length
  rejected_eq : h.loop.stats.rejected = h.refused.length
  leaving : h.loop.phase.isLeaving = true → f.isStopped h.env.office = true ∨ (f.incoming h.env.office).closed = true

namespace Sound

theorem start {env : Environment} (henv : env.Sound hv)
    (hring : (sizes.channel kind).packets.Publishes hv.geometry torn first before env.memory) :
    Sound f hv kind torn first before (start f env) where
  env := henv
  ring := by
    rw [show (PushHistory.start f env).published = [] from rfl, List.append_nil, PacketRing.epoch_of_lt hring.length_lt]
    exact hring
  answers _ hmem := absurd hmem List.not_mem_nil
  fate := .inl rfl
  order := .refl _
  forwarded_eq := rfl
  rejected_eq := rfl
  leaving hl := absurd hl Bool.false_ne_true

/-- **A step of the loop keeps the invariant.** -/
theorem step (hf : f.channel = sizes.channel kind) (hs : Sound f hv kind torn first before h) :
    Sound f hv kind torn first before (h.turn f sizes .step) where
  env := h.loop.sound_step hf hs.env
  ring := by
    have hring := h.loop.publishes_step hf hs.env hs.ring
    rw [PacketRing.epoch_epoch_append, List.append_assoc] at hring
    simpa only [PushHistory.turn, published, List.filter_append, List.map_append] using hring
  answers offer hmem := by
    rcases List.mem_append.1 hmem with hmem | hmem
    · exact hs.answers offer hmem
    · exact PushLoop.nextOffer_snd hf hs.env (Option.mem_toList.1 hmem)
  fate := by
    simp only [PushHistory.turn, List.map_append, h.loop.isStopped_step hs.env.orderly]
    rcases hs.fate with hpopped | ⟨⟨dropped, hpopped⟩, hstopped, hending⟩
    · rcases h.loop.inHand_step f h.env with hhand | ⟨packet, hphase, hstopped, hcheck⟩
      · left
        rw [hpopped, List.append_assoc, List.append_assoc, hhand]
      · -- The packet in hand is dropped.
        right
        rw [hpopped, hcheck, PushLoop.nextPopped, PushLoop.nextOffer, hphase]
        exact ⟨⟨packet, by simp [PushPhase.inHand]⟩, hstopped, rfl⟩
    · right
      obtain ⟨hnone, hoffer, hstill⟩ := PushLoop.isEnding_step hstopped hending
      rw [hnone, hoffer, hpopped]
      exact ⟨⟨dropped, by simp⟩, hstopped, hstill⟩
  order := by
    have hpending := h.loop.pending_step (f := f) hs.env.orderly
    simp only [PushHistory.turn]
    rw [List.append_assoc, hpending]
    exact hs.order
  forwarded_eq := by
    simp only [PushHistory.turn, published, List.length_map, List.filter_append, List.length_append,
      (h.loop.stats_step f h.env).1, hs.forwarded_eq]
  rejected_eq := by
    simp only [PushHistory.turn, refused, List.length_map, List.filter_append, List.length_append,
      (h.loop.stats_step f h.env).2, hs.rejected_eq]
  leaving hl := by
    simp only [PushHistory.turn, h.loop.isStopped_step hs.env.orderly, h.loop.closed_step hs.env.orderly]
    rcases PushLoop.isLeaving_step hl with hbefore | hcause
    · exact hs.leaving hbefore
    · exact hcause

/-- **So does a turn of others** that offer nothing to the ring. -/
theorem outside (hs : Sound f hv kind torn first before h) (turn : OutsideTurn) (hsole : turn.offered kind = []) :
    Sound f hv kind torn first before (h.turn f sizes (.outside turn)) where
  env := hs.env.outside turn
  ring := by
    have hring := turn.publishes hs.env hs.ring
    rw [hsole, List.filter_nil, List.append_nil, PacketRing.epoch_of_lt hs.ring.length_lt] at hring
    exact hring
  answers := hs.answers
  fate := hs.fate.imp_right fun ⟨hdropped, hstopped, hending⟩ =>
    ⟨hdropped, Forwarder.isStopped_mono (turn.extends_perform sizes h.env) hstopped, hending⟩
  order := by
    have hpending := turn.pending_perform_sublist sizes f hs.env.orderly
    have hsub := (List.Sublist.refl h.popped).append hpending
    rw [← List.append_assoc] at hsub
    exact hsub.trans (hs.order.append (.refl _))
  forwarded_eq := hs.forwarded_eq
  rejected_eq := hs.rejected_eq
  leaving hl := (hs.leaving hl).imp (Forwarder.isStopped_mono (turn.extends_perform sizes h.env))
    (turn.extends_perform sizes h.env).queueUnder_closed

/-- So does every run. -/
theorem run (hf : f.channel = sizes.channel kind) (hs : Sound f hv kind torn first before h)
    {turns : List ForwardTurn} (hsole : ∀ turn ∈ turns, turn.offered kind = []) :
    Sound f hv kind torn first before (h.run f sizes turns) := by
  induction turns generalizing h with
  | nil => exact hs
  | cons turn rest ih =>
    obtain ⟨hturn, hrest⟩ := List.forall_mem_cons.1 hsole
    cases turn with
    | step => exact ih (hs.step hf) hrest
    | outside turn => exact ih (hs.outside turn hturn) hrest

end Sound

/-- **Once the loop is told to stop, it offers no more than the packet that it was about to offer.** -/
theorem offers_run_of_stopped (sizes : Sizes) (hs : f.isStopped h.env.office = true) (turns : List ForwardTurn) :
    ∃ more, (h.run f sizes turns).offers = h.offers ++ more ∧ more.length ≤ h.loop.phase.due := by
  induction turns generalizing h with
  | nil => exact ⟨[], (List.append_nil _).symm, Nat.zero_le _⟩
  | cons turn rest ih =>
    cases turn with
    | step =>
      have hdue := PushLoop.due_step hs h.loop
      obtain ⟨more, hmore, hlength⟩ :=
        ih (h := h.turn f sizes .step) (Forwarder.isStopped_mono (h.loop.extends_step f h.env) hs)
      refine ⟨(h.loop.nextOffer f h.env).toList ++ more, hmore.trans (List.append_assoc ..), ?_⟩
      rw [List.length_append]
      exact Nat.le_trans (Nat.add_le_add_left hlength _) hdue
    | outside turn => exact ih (Forwarder.isStopped_mono (turn.extends_perform sizes h.env) hs)

/-- What the ring took and refused is told apart by its size. -/
theorem Sound.published_eq (hs : Sound f hv kind torn first before h) :
    h.published = (h.offers.map Prod.fst).filter (fun packet => packet.data.length ≤ sizes.slotSize) ∧
      h.refused = (h.offers.map Prod.fst).filter fun packet => sizes.slotSize < packet.data.length := by
  refine ⟨?_, ?_⟩
  · rw [published, List.filter_map]
    refine congrArg (List.map Prod.fst) (List.filter_congr fun offer hmem => ?_)
    rw [hs.answers offer hmem]
    rfl
  · rw [refused, List.filter_map]
    refine congrArg (List.map Prod.fst) (List.filter_congr fun offer hmem => ?_)
    rw [hs.answers offer hmem, ← decide_not]
    exact decide_eq_decide.2 Nat.not_le

theorem length_published_add_refused (h : PushHistory) : h.published.length + h.refused.length = h.offers.length := by
  rw [published, refused, List.length_map, List.length_map, ← List.countP_eq_length_filter,
    ← List.countP_eq_length_filter, List.length_eq_countP_add_countP (·.2)]
  simp

end PushHistory

/-- **A push forwarder neither reorders, doubles nor silently loses packets.** Let the loop of a forwarder run on a
channel of a segment, as the only producer of its ring, while others do what they like in between. Then at any time

* what it has popped is, but for the last packet, what it has handled: it has published what fits into a slot and the
  ring has refused the rest, both in the order in which they were popped. The last packet is still in hand, or it was
  dropped after a shutdown latch was raised;
* it has popped packets in the order of its queue;
* its counters are the numbers of packets published and refused, and they miss at most one of those popped;
* the ring holds what was published in it before, and then what the loop has published;
* if a shutdown latch is raised, it publishes at most one more packet, whatever is done later;
* if it has ended, a shutdown latch is raised or its queue is closed. -/
theorem packets_pushed_in_order {sizes : Sizes} {hv : sizes.Valid} {kind : ChannelKind} {f : Forwarder}
    (hf : f.channel = sizes.channel kind) {env : Environment} (henv : env.Sound hv) {torn : Nat → Bool} {first : Nat}
    {before : List Packet}
    (hring : (sizes.channel kind).packets.Publishes hv.geometry torn first before env.memory)
    {turns : List ForwardTurn} (hsole : ∀ turn ∈ turns, turn.offered kind = []) :
    let h := (PushHistory.start f env).run f sizes turns
    let stats := h.loop.stats
    (∃ handled rest, h.popped = handled ++ rest ∧
      h.published = handled.filter (fun packet => packet.data.length ≤ sizes.slotSize) ∧
      h.refused = handled.filter (fun packet => sizes.slotSize < packet.data.length) ∧
      (rest = h.loop.phase.inHand.toList ∨ rest.length = 1 ∧ f.isStopped h.env.office = true)) ∧
    h.popped.Sublist h.queued ∧
    stats.forwarded = h.published.length ∧ stats.rejected = h.refused.length ∧
    (h.popped.length = stats.forwarded + stats.rejected ∨ h.popped.length = stats.forwarded + stats.rejected + 1) ∧
    (sizes.channel kind).packets.Publishes hv.geometry torn first (PacketRing.epoch (before ++ h.published))
      h.env.memory ∧
    (f.isStopped h.env.office = true → ∀ later, ∃ more,
      (h.run f sizes later).published = h.published ++ more ∧ more.length ≤ 1) ∧
    (h.loop.phase = .left → f.isStopped h.env.office = true ∨ (f.incoming h.env.office).closed = true) := by
  intro h stats
  have hs : PushHistory.Sound f hv kind torn first before h := (PushHistory.Sound.start henv hring).run hf hsole
  obtain ⟨hpublished, hrefused⟩ := hs.published_eq
  have hlength := h.length_published_add_refused
  have hpopped : ∃ rest, h.popped = h.offers.map Prod.fst ++ rest ∧
      (rest = h.loop.phase.inHand.toList ∨ rest.length = 1 ∧ f.isStopped h.env.office = true) := by
    rcases hs.fate with hpopped | ⟨⟨dropped, hpopped⟩, hstopped, -⟩
    · exact ⟨_, hpopped, .inl rfl⟩
    · exact ⟨_, hpopped, .inr ⟨rfl, hstopped⟩⟩
  obtain ⟨rest, hpopped, hrest⟩ := hpopped
  have hone : rest.length ≤ 1 := by
    rcases hrest with rfl | ⟨hone, -⟩
    · exact Option.length_toList_le
    · exact Nat.le_of_eq hone
  refine ⟨⟨_, rest, hpopped, hpublished, hrefused, hrest⟩, (List.sublist_append_left _ _).trans hs.order,
    hs.forwarded_eq, hs.rejected_eq, ?_, hs.ring, fun hstopped later => ?_,
    fun hleft => hs.leaving (by rw [hleft]; rfl)⟩
  · rw [hpopped, List.length_append, List.length_map, show stats.forwarded = _ from hs.forwarded_eq,
      show stats.rejected = _ from hs.rejected_eq]
    omega
  · obtain ⟨more, hmore, hbound⟩ := PushHistory.offers_run_of_stopped sizes hstopped later
    refine ⟨(more.filter (·.2)).map Prod.fst, ?_, ?_⟩
    · rw [PushHistory.published, hmore, List.filter_append, List.map_append, PushHistory.published]
    · rw [List.length_map]
      exact Nat.le_trans (List.length_filter_le _ _) (Nat.le_trans hbound h.loop.phase.due_le_one)

/-- Of three packets one is published, one is refused, and the last is dropped, as the session is shut down while the
loop has it in hand. -/
theorem packets_pushed_in_order_dropping :
    let sizes : Sizes := { queueSize := 1, slotSize := 1, eventSlots := 1 }
    let f : Forwarder := { channel := sizes.channel .video0, process := 0, session := 1 }
    let env : Environment :=
      { memory := ((Segment.init sizes (.of sizes)).run .zeroed).2
        office := (Office.addMailbox (Office.addMailbox .empty).2).2 }
    let push (data : List UInt8) : ForwardTurn := .outside (.mail (.onQueue .packet 0 (.push { data })))
    let turns : List ForwardTurn :=
      [.outside (.mail (.queueOf 1 .packet MailKey.videoPackets.text)), push [1], push [1, 2], push [3]] ++
        List.replicate 13 .step ++
        [.outside (.mail (.event 1 .flag MailKey.shutdown.text)), .outside (.mail (.raise .flag 0 true))] ++
        List.replicate 4 .step
    ∃ hv : sizes.Valid, env.Sound hv ∧ f.channel.packets.Healthy hv.geometry [] env.memory ∧
      (∀ turn ∈ turns, turn.offered .video0 = []) ∧
      let h := (PushHistory.start f env).run f sizes turns
      h.loop.phase = .left ∧ h.popped = [{ data := [1] }, { data := [1, 2] }, { data := [3] }] ∧
        h.published = [{ data := [1] }] ∧ h.refused = [{ data := [1, 2] }] ∧
        h.loop.stats = { forwarded := 1, rejected := 1 } ∧
        f.channel.packets.Healthy hv.geometry [{ data := [1] }] h.env.memory := by
  intro sizes f env push turns
  have hv : sizes.Valid := Sizes.check_eq_ok_iff.1 rfl
  have henv : env.Sound hv := .init hv Office.orderly_empty.addMailbox.addMailbox
  have hf : f.channel = sizes.channel .video0 := rfl
  have hring : f.channel.packets.Healthy hv.geometry [] env.memory := Segment.healthy_init hv .video0 .zeroed
  have hsole : ∀ turn ∈ turns, turn.offered .video0 = [] := by decide
  obtain ⟨-, -, -, -, -, hafter, -, -⟩ :=
    packets_pushed_in_order hf henv hring hsole
  have hrun : let h := (PushHistory.start f env).run f sizes turns
      h.loop.phase = .left ∧ h.popped = [{ data := [1] }, { data := [1, 2] }, { data := [3] }] ∧
        h.published = [{ data := [1] }] ∧ h.refused = [{ data := [1, 2] }] ∧
        h.loop.stats = { forwarded := 1, rejected := 1 } := by
    decide +kernel
  obtain ⟨hleft, hpopped, hpublished, hrefused, hstats⟩ := hrun
  rw [hpublished] at hafter
  exact ⟨hv, henv, hring, hsole, hleft, hpopped, hpublished, hrefused, hstats, hafter⟩

end MediaChannels
