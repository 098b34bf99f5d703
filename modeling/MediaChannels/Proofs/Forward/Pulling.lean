import MediaChannels.Forward.Pull
import MediaChannels.Proofs.Forward.Surroundings
import MediaChannels.Proofs.PacketRing.Consumers

/-!
# Pulling accounts for everything

A pull loop follows the ring of its channel with a cursor of its own and hands packets to a sink, while others publish
packets and use the mailboxes as they like; the sink is one of these others. It is a consumer of the ring: up to its
cursor every packet is handed over once, or counted as skipped once.

* `PullLoop.consumer`: the consumer that a loop is, at every phase; `PullLoop.accounts_step`: a step is a step of the
  consumer, or none.
* `PullHistory`: a loop with all packets that were ever published in its ring; `PullHistory.Sound`: the invariant, which
  a step of the loop (`Sound.step`) and a turn of others (`Sound.outside`) keep.
* `PullHistory.delivered_run_of_stopped`: once the loop is told to stop, at most one more packet is handed over, and
  none if it was told so during a call of the sink.
* `packets_pulled_accounted`: what follows for every run.
-/

namespace MediaChannels

namespace PullPhase

/-- The walk that the loop is on. -/
def walk? : PullPhase → Option Poll
  | fetch walk _ | deliver walk _ | decide walk | account walk _ => some walk
  | _ => none

/-- The packet that was fetched and not handed over yet. -/
def inHand : PullPhase → Option IndexedPacket
  | deliver _ packet => some packet
  | _ => none

/-- The packets that the loop may hand over before it looks whether to stop. -/
def due : PullPhase → Nat
  | begin | fetch .. | deliver .. => 1
  | _ => 0

theorem due_le_one (phase : PullPhase) : phase.due ≤ 1 := by cases phase <;> simp [due]

end PullPhase

namespace PullLoop

variable {f : Forwarder} {l : PullLoop} {env : Environment} {sizes : Sizes} {hv : sizes.Valid} {kind : ChannelKind}
  {packets : List Packet}

/-- The loop as a consumer of the ring. Between two walks it is at the end of an empty one. -/
def consumer (l : PullLoop) : PacketConsumer :=
  { walk := l.phase.walk?.getD { cursor := l.cursor, stop := l.cursor }
    received := l.delivered ++ l.phase.inHand.toList
    missed := l.stats.skipped }

/-! ## Steps -/

theorem step_fetch (f : Forwarder) (walk : Poll) (received : Bool) (cursor : UInt64) (stats : ForwardStats)
    (delivered : List IndexedPacket) (env : Environment) :
    let fetched := ((f.channel.packets.next walk).run env.memory).1
    step f { phase := .fetch walk received, cursor, stats, delivered } env =
      ({ phase := fetched.1.elim (.account fetched.2 received) (.deliver fetched.2)
         cursor := fetched.2.cursor, stats, delivered }, (env.access (f.channel.packets.next walk)).2) := by
  simp only [step, Environment.access]
  generalize (f.channel.packets.next walk).run env.memory = result
  obtain ⟨⟨packet, walk'⟩, memory⟩ := result
  cases packet <;> rfl

/-- A pull loop leaves the mailboxes alone. -/
theorem office_step (f : Forwarder) (l : PullLoop) (env : Environment) : (step f l env).2.office = env.office := by
  obtain ⟨phase, cursor, stats, delivered⟩ := l
  cases phase with
  | fetch walk received => rw [step_fetch]; rfl
  | _ => rfl

/-- It leaves the sizes of all parts alone. -/
theorem sound_step (hf : f.channel = sizes.channel kind) (h : env.Sound hv) (l : PullLoop) :
    (step f l env).2.Sound hv := by
  have hactive (active : Bool) : (env.access (f.channel.setActive active)).2.Sound hv := by
    rw [hf]
    exact h.keeps (ChannelCall.keeps_setActive active)
  obtain ⟨phase, cursor, stats, delivered⟩ := l
  cases phase with
  | enter => exact hactive true
  | fetch walk received =>
    have hnext := h.keeps (ChannelCall.keeps_next (h.ready kind) walk)
    rw [step_fetch, hf]
    exact hnext
  | leave => exact hactive false
  | _ => exact h

/-- **It never writes to the ring.** -/
theorem publishes_step {torn : Nat → Bool} {start : Nat} (hf : f.channel = sizes.channel kind)
    (hring : (sizes.channel kind).packets.Publishes hv.geometry torn start packets env.memory) (l : PullLoop) :
    (sizes.channel kind).packets.Publishes hv.geometry torn start packets (step f l env).2.memory := by
  have hactive (active : Bool) : (sizes.channel kind).packets.Publishes hv.geometry torn start packets
      (env.access (f.channel.setActive active)).2.memory := by
    rw [hf]
    exact hring.of_keeps (ChannelCall.keeps_setActive active) (by decide)
  obtain ⟨phase, cursor, stats, delivered⟩ := l
  cases phase with
  | enter => exact hactive true
  | fetch walk received =>
    rw [step_fetch]
    show (sizes.channel kind).packets.Publishes hv.geometry torn start packets
      ((f.channel.packets.next walk).run env.memory).2
    rwa [PacketRing.run_next_snd]
  | leave => exact hactive false
  | _ => exact hring

/-- **A step of the loop is a step of the consumer**, or none. -/
theorem accounts_step (hf : f.channel = sizes.channel kind)
    (hring : (sizes.channel kind).packets.Healthy hv.geometry packets env.memory) (h : l.consumer.Accounts packets)
    (hcursor : l.consumer.walk.cursor = l.cursor) :
    (step f l env).1.consumer.Accounts packets ∧
      (step f l env).1.consumer.walk.cursor = (step f l env).1.cursor := by
  obtain ⟨phase, cursor, stats, delivered⟩ := l
  cases phase with
  | check =>
    simp only [step]
    split <;> exact ⟨h, hcursor⟩
  | begin =>
    have hpoll := h.poll hring
    refine ⟨?_, ?_⟩
    · simp only [step, Environment.access, hf]
      exact hpoll
    · simp [step, Environment.access, PacketRing.poll, consumer, PullPhase.walk?]
  | fetch walk received =>
    have hnext := h.next hring
    simp only [consumer, PullPhase.walk?, PullPhase.inHand, PacketConsumer.receive, Option.getD_some,
      Option.toList_none, List.append_nil] at hnext
    rw [step_fetch, hf]
    generalize (((sizes.channel kind).packets.next walk).run env.memory).1 = fetched at hnext ⊢
    obtain ⟨packet, walk'⟩ := fetched
    cases packet with
    | none => exact ⟨by simpa [consumer, PullPhase.walk?, PullPhase.inHand] using hnext, rfl⟩
    | some packet => exact ⟨hnext, rfl⟩
  | deliver walk packet =>
    refine ⟨?_, hcursor⟩
    simp only [consumer, PullPhase.walk?, PullPhase.inHand, step, Option.toList_none, List.append_nil] at h ⊢
    exact h
  | decide walk =>
    simp only [step]
    split <;> exact ⟨h, hcursor⟩
  | account walk received =>
    have hlast := h.beginAt h.cursor_le
    have hwalk : walk.cursor = cursor := hcursor
    simp only [consumer, PullPhase.walk?, PullPhase.inHand, PacketConsumer.begin, Option.getD_some, hwalk] at hlast
    simp only [step]
    cases received <;> exact ⟨hlast, rfl⟩
  | _ => exact ⟨h, hcursor⟩

/-- The loop counts the packets that it hands over. -/
theorem forwarded_step (h : l.stats.forwarded = l.delivered.length) :
    (step f l env).1.stats.forwarded = (step f l env).1.delivered.length := by
  obtain ⟨phase, cursor, stats, delivered⟩ := l
  cases phase with
  | fetch walk received =>
    rw [step_fetch]
    exact h
  | deliver walk packet =>
    simp only [step, List.length_append, List.length_singleton]
    exact congrArg (· + 1) h
  | _ => exact h

/-- A loop that is told to stop hands over what is due, and nothing becomes due. -/
theorem due_step (hs : f.isStopped env.office = true) (l : PullLoop) :
    ∃ more, (step f l env).1.delivered = l.delivered ++ more ∧
      more.length + (step f l env).1.phase.due ≤ l.phase.due := by
  obtain ⟨phase, cursor, stats, delivered⟩ := l
  cases phase with
  | check =>
    simp only [step, hs]
    exact ⟨[], (List.append_nil _).symm, Nat.le_refl _⟩
  | fetch walk received =>
    rw [step_fetch]
    refine ⟨[], (List.append_nil _).symm, ?_⟩
    dsimp only
    cases ((f.channel.packets.next walk).run env.memory).1.1 <;> simp [PullPhase.due]
  | deliver walk packet => exact ⟨[packet], rfl, Nat.le_refl _⟩
  | decide walk =>
    rw [step_decide_of_stopped hs rfl]
    exact ⟨[], (List.append_nil _).symm, Nat.le_refl _⟩
  | account walk received =>
    refine ⟨[], (List.append_nil _).symm, ?_⟩
    simp only [step]
    cases received <;> exact Nat.le_refl _
  | _ => exact ⟨[], (List.append_nil _).symm, Nat.le_refl _⟩

end PullLoop

/-! ## Runs -/

/-- A pull loop with its surroundings, and all packets that were ever published in its ring. -/
structure PullHistory where
  loop : PullLoop := {}
  env : Environment
  published : List Packet

namespace PullHistory

variable (f : Forwarder) (sizes : Sizes) (kind : ChannelKind) (h : PullHistory)

/-- One turn. What others offer to the ring is published if it fits. -/
def turn : ForwardTurn → PullHistory
  | .step => { h with loop := (h.loop.step f h.env).1, env := (h.loop.step f h.env).2 }
  | .outside turn =>
    { h with
      env := turn.perform sizes h.env
      published := h.published ++ (turn.offered kind).filter (·.data.length ≤ sizes.slotSize) }

/-- Turns one after the other. -/
def run (turns : List ForwardTurn) : PullHistory := turns.foldl (turn f sizes kind) h

variable {f sizes kind h} {hv : sizes.Valid}

/-- What was published remains published. -/
theorem length_published_le_run (f : Forwarder) (sizes : Sizes) (kind : ChannelKind) (turns : List ForwardTurn)
    (h : PullHistory) : h.published.length ≤ (h.run f sizes kind turns).published.length := by
  induction turns generalizing h with
  | nil => exact Nat.le_refl _
  | cons turn rest ih =>
    refine Nat.le_trans ?_ (ih (h.turn f sizes kind turn))
    cases turn with
    | step => exact Nat.le_refl _
    | outside turn => exact (List.prefix_append _ _).length_le

/-- What holds at any time of a run. -/
structure Sound (hv : sizes.Valid) (kind : ChannelKind) (h : PullHistory) : Prop where
  env : h.env.Sound hv
  ring : (sizes.channel kind).packets.Healthy hv.geometry h.published h.env.memory
  accounts : h.loop.consumer.Accounts h.published
  cursor_eq : h.loop.consumer.walk.cursor = h.loop.cursor
  forwarded_eq : h.loop.stats.forwarded = h.loop.delivered.length

namespace Sound

theorem start {env : Environment} {before : List Packet} (henv : env.Sound hv)
    (hring : (sizes.channel kind).packets.Healthy hv.geometry before env.memory) :
    Sound hv kind { env, published := before } := ⟨henv, hring, .start before, rfl, rfl⟩

/-- **A step of the loop keeps the invariant.** -/
theorem step (hf : f.channel = sizes.channel kind) (hs : Sound hv kind h) :
    Sound hv kind (h.turn f sizes kind .step) := by
  obtain ⟨haccounts, hcursor⟩ := PullLoop.accounts_step hf hs.ring hs.accounts hs.cursor_eq
  exact ⟨h.loop.sound_step hf hs.env, h.loop.publishes_step hf hs.ring, haccounts, hcursor,
    PullLoop.forwarded_step hs.forwarded_eq⟩

/-- **So does a turn of others**, as long as indices last. -/
theorem outside (hs : Sound hv kind h) (turn : OutsideTurn)
    (hlast : (h.turn f sizes kind (.outside turn)).published.length < 2 ^ 64) :
    Sound hv kind (h.turn f sizes kind (.outside turn)) := by
  have hring := turn.publishes hs.env hs.ring
  rw [PacketRing.epoch_of_lt (by exact hlast)] at hring
  exact ⟨hs.env.outside turn, hring, hs.accounts.mono (List.prefix_append _ _), hs.cursor_eq, hs.forwarded_eq⟩

/-- So does every run. -/
theorem run (hf : f.channel = sizes.channel kind) (hs : Sound hv kind h) {turns : List ForwardTurn}
    (hlast : (h.run f sizes kind turns).published.length < 2 ^ 64) : Sound hv kind (h.run f sizes kind turns) := by
  induction turns generalizing h with
  | nil => exact hs
  | cons turn rest ih =>
    have hnow := Nat.lt_of_le_of_lt (length_published_le_run f sizes kind rest (h.turn f sizes kind turn)) hlast
    cases turn with
    | step => exact ih (hs.step hf) hlast
    | outside turn => exact ih (hs.outside turn hnow) hlast

end Sound

/-- **Once the loop is told to stop, it hands over no more than the packet that is due.** -/
theorem delivered_run_of_stopped (sizes : Sizes) (kind : ChannelKind) (hs : f.isStopped h.env.office = true)
    (turns : List ForwardTurn) :
    ∃ more, (h.run f sizes kind turns).loop.delivered = h.loop.delivered ++ more ∧
      more.length ≤ h.loop.phase.due := by
  induction turns generalizing h with
  | nil => exact ⟨[], (List.append_nil _).symm, Nat.zero_le _⟩
  | cons turn rest ih =>
    cases turn with
    | step =>
      obtain ⟨now, hnow, hdue⟩ := PullLoop.due_step hs h.loop
      obtain ⟨more, hmore, hlength⟩ := ih (h := h.turn f sizes kind .step) ((h.loop.office_step f h.env).symm ▸ hs)
      refine ⟨now ++ more, ?_, ?_⟩
      · rw [← List.append_assoc, ← hnow]
        exact hmore
      · rw [List.length_append]
        exact Nat.le_trans (Nat.add_le_add_left hlength _) hdue
    | outside turn => exact ih (Forwarder.isStopped_mono (turn.extends_perform sizes h.env) hs)

end PullHistory

/-- **A pull forwarder accounts for every packet.** Let the loop of a forwarder run on a channel of a segment while
others do what they like in between: they publish packets in its ring and use the mailboxes; the sink is one of them.
Then at any time until indices run out

* what the sink was given are packets of the ring, with their bytes and marks and in the order of their indices, each
  once, and the counter of forwarded packets is their number;
* the cursor is not beyond what is published;
* if the loop has ended, forwarded and skipped packets add up to the cursor, and the packets up to the cursor that the
  sink was not given are as many as were counted as skipped;
* if a shutdown latch is raised, the sink is given at most one more packet, and none if it was raised before the sink
  returned, whatever is done later. -/
theorem packets_pulled_accounted {sizes : Sizes} {hv : sizes.Valid} {kind : ChannelKind} {f : Forwarder}
    (hf : f.channel = sizes.channel kind) {env : Environment} (henv : env.Sound hv) {before : List Packet}
    (hring : (sizes.channel kind).packets.Healthy hv.geometry before env.memory) {turns : List ForwardTurn}
    (hlast : (PullHistory.run f sizes kind { env, published := before } turns).published.length < 2 ^ 64) :
    let h := PullHistory.run f sizes kind { env, published := before } turns
    let loop := h.loop
    loop.delivered.Sublist (PacketRing.numbered h.published) ∧
    loop.delivered.Pairwise (fun x y => x.index < y.index) ∧
    loop.stats.forwarded = loop.delivered.length ∧
    loop.cursor.toNat ≤ h.published.length ∧
    (f.channel.packets.writeIndex.run h.env.memory).1.toNat = h.published.length ∧
    (loop.phase = .left → loop.stats.forwarded + loop.stats.skipped = loop.cursor.toNat ∧
      loop.delivered.Sublist ((PacketRing.numbered h.published).take loop.cursor.toNat) ∧
      ((PacketRing.numbered h.published).take loop.cursor.toNat).countP (fun packet => packet ∉ loop.delivered) =
        loop.stats.skipped) ∧
    (f.isStopped h.env.office = true → ∀ later, ∃ more,
      (h.run f sizes kind later).loop.delivered = loop.delivered ++ more ∧ more.length ≤ 1 ∧
        ∀ walk, loop.phase = .decide walk → more = []) := by
  intro h loop
  have hs : PullHistory.Sound hv kind h := PullHistory.Sound.run hf (.start henv hring) hlast
  have haccounts := hs.accounts
  have hcursor := hs.cursor_eq
  have hsub : loop.delivered.Sublist (PacketRing.numbered h.published) :=
    (List.sublist_append_left _ _).trans (haccounts.received.trans (List.take_sublist _ _))
  refine ⟨hsub, (PacketRing.pairwise_numbered hlast).sublist hsub, hs.forwarded_eq, ?_, ?_, fun hleft => ?_,
    fun hstopped later => ?_⟩
  · rw [← hcursor]
    exact haccounts.cursor_le
  · rw [hf, PacketRing.run_writeIndex]
    exact hs.ring.holds.toNat_writeIndex
  · -- A loop that has ended is on no walk and has no packet in hand.
    have hconsumer : loop.consumer =
        { walk := { cursor := loop.cursor, stop := loop.cursor }
          received := loop.delivered
          missed := loop.stats.skipped } := by
      simp [PullLoop.consumer, hleft, PullPhase.walk?, PullPhase.inHand]
    rw [show h.loop.consumer = _ from hconsumer] at haccounts
    have hmissed := haccounts.countP_not_received hlast
    exact ⟨(congrArg (· + loop.stats.skipped) hs.forwarded_eq).trans haccounts.counted, haccounts.received, hmissed⟩
  · obtain ⟨more, hmore, hdue⟩ := PullHistory.delivered_run_of_stopped sizes kind hstopped later
    refine ⟨more, hmore, Nat.le_trans hdue h.loop.phase.due_le_one, fun walk hdecide => ?_⟩
    rw [show h.loop.phase = _ from hdecide] at hdue
    exact List.eq_nil_of_length_eq_zero (Nat.le_zero.1 hdue)

/-- A sink that publishes a packet and shuts down its session while it has the first packet is given no other. The loop
ends four steps later, with one packet handed over and one skipped, which is the one that had been overwritten. -/
theorem packets_pulled_accounted_stopping :
    let sizes : Sizes := { queueSize := 2, slotSize := 1, eventSlots := 1 }
    let f : Forwarder := { channel := sizes.channel .input, process := 0, session := 1 }
    let env : Environment :=
      { memory := ((Segment.init sizes (.of sizes)).run .zeroed).2
        office := (Office.addMailbox (Office.addMailbox .empty).2).2 }
    let push (data : List UInt8) : ForwardTurn :=
      .outside (.ask { mapping := 0, object := 0, size := 0, name := "desk", owner := false } .input
        (.pushPacket { data, marks := { tag := 7 } }))
    let turns : List ForwardTurn := [push [1], push [2], push [1, 2], push [3]] ++ List.replicate 5 .step ++
      [push [4], .outside (.mail (.event 1 .flag MailKey.shutdown.text)), .outside (.mail (.raise .flag 0 true))]
    ∃ hv : sizes.Valid, env.Sound hv ∧ f.channel.packets.Healthy hv.geometry [] env.memory ∧
      let h := PullHistory.run f sizes .input { env, published := [] } turns
      let ended := PullHistory.run f sizes .input { env, published := [] } (turns ++ List.replicate 4 .step)
      h.published.length < 2 ^ 64 ∧
        h.loop.delivered = [{ index := 2, packet := { data := [2], marks := { tag := 7 } } }] ∧
        (∀ later, (h.run f sizes .input later).loop.delivered = h.loop.delivered) ∧
        ended.loop.phase = .left ∧ ended.loop.delivered = h.loop.delivered ∧
        ended.loop.stats.forwarded + ended.loop.stats.skipped = 2 ∧ ended.loop.stats.skipped = 1 ∧
        ((PacketRing.numbered ended.published).take 2).countP (fun packet => packet ∉ ended.loop.delivered) = 1 := by
  intro sizes f env push turns
  have hv : sizes.Valid := Sizes.check_eq_ok_iff.1 rfl
  have henv : env.Sound hv := .init hv Office.orderly_empty.addMailbox.addMailbox
  have hring : f.channel.packets.Healthy hv.geometry [] env.memory := Segment.healthy_init hv .input .zeroed
  have hf : f.channel = sizes.channel .input := rfl
  have hrun : let h := PullHistory.run f sizes .input { env, published := [] } turns
      h.published.length < 2 ^ 64 ∧
        h.loop.delivered = [{ index := 2, packet := { data := [2], marks := { tag := 7 } } }] ∧
        f.isStopped h.env.office = true ∧ h.loop.phase = .decide { cursor := 2, stop := 3, skipped := 1 } := by
    decide +kernel
  obtain ⟨hlast, hdelivered, hstopped, hdecide⟩ := hrun
  obtain ⟨-, -, -, -, -, -, hstop⟩ := packets_pulled_accounted hf henv hring hlast
  have hnone (later : List ForwardTurn) : (PullHistory.run f sizes .input
      (PullHistory.run f sizes .input { env, published := [] } turns) later).loop.delivered =
        (PullHistory.run f sizes .input { env, published := [] } turns).loop.delivered := by
    obtain ⟨more, hmore, -, hnone⟩ := hstop hstopped later
    rw [hmore, hnone _ hdecide, List.append_nil]
  have hend : let ended := PullHistory.run f sizes .input { env, published := [] } (turns ++ List.replicate 4 .step)
      ended.published.length < 2 ^ 64 ∧ ended.loop.phase = .left ∧ ended.loop.cursor = 2 ∧
        ended.loop.stats.skipped = 1 := by
    decide +kernel
  obtain ⟨hlast', hleft, hcursor, hskipped⟩ := hend
  obtain ⟨-, -, -, -, -, hreturned, -⟩ := packets_pulled_accounted hf henv hring hlast'
  obtain ⟨hsum, -, hcount⟩ := hreturned hleft
  rw [hcursor] at hsum hcount
  refine ⟨hv, henv, hring, hlast, hdelivered, hnone, hleft, ?_, hsum, hskipped, hcount.trans hskipped⟩
  rw [PullHistory.run, List.foldl_append]
  exact hnone _

end MediaChannels
