import MediaChannels.Forward.Push
import MediaChannels.Proofs.Mail.Uses

/-!
# The mailboxes of a forwarder

A forwarder looks at three latches to know whether to stop, takes packets from one queue, and raises four latches, one
for each kind of control event.

* `Forwarder.isStopped_mono`, `Forwarder.isStopped_of_looks`: a forwarder that was told to stop remains told so, and the
  three latches may as well be looked at one after the other.
* `Forwarder.sessionEvent_raiseEvent`: an event that is raised becomes the last one of its kind and of no other.
* `PushLoop.incoming_pop`: popping takes the first packet that is pending.
* `Forwarder.isStopped_raiseEvent`, `PushLoop.isStopped_pop`: a forwarder never tells itself to stop.
-/

namespace MediaChannels

/-! ## Latches of control events -/

namespace ControlKind

/-- What the session's latch for events of a kind carries. -/
def latchType : ControlKind → ItemType
  | bitrate | framerate => .number
  | pointer | idr => .flag

/-- The key of the session's latch for events of a kind. -/
def mailKey : ControlKind → MailKey
  | bitrate => .bitrate
  | framerate => .framerate
  | pointer => .pointer
  | idr => .idr

/-- The event of a kind that a value of its latch stands for. -/
def eventOf : (kind : ControlKind) → kind.latchType.Carrier → ControlEvent
  | bitrate, kbps => .bitrate kbps
  | framerate, fps => .framerate fps
  | pointer, visible => .pointer visible
  | idr, requested => .idr requested

theorem text_mailKey_ne {kind kind' : ControlKind} (h : kind ≠ kind') : kind.mailKey.text ≠ kind'.mailKey.text := by
  cases kind <;> cases kind' <;> first | exact absurd rfl h | decide

end ControlKind

/-- The value that a control event leaves in its latch. -/
def ControlEvent.payload : (event : ControlEvent) → event.kind.latchType.Carrier
  | bitrate kbps => kbps
  | framerate fps => fps
  | pointer visible => visible
  | idr requested => requested

@[simp] theorem ControlEvent.eventOf_payload (event : ControlEvent) : event.kind.eventOf event.payload = event := by
  cases event <;> rfl

namespace Forwarder

variable {f : Forwarder} {o o' o'' : Office}

/-! ## Being told to stop -/

theorem isStopped_congr (h : ∀ m, ∀ key ∈ [MailKey.shutdown, .broadcastShutdown],
    o'.valueOf m .flag key.text = o.valueOf m .flag key.text) : f.isStopped o' = f.isStopped o := by
  simp only [isStopped, Office.isRaised_eq, h _ .shutdown (by decide), h _ .broadcastShutdown (by decide)]

/-- A forwarder that was told to stop remains told so. -/
theorem isStopped_mono (h : o.Extends o') (hs : f.isStopped o = true) : f.isStopped o' = true := by
  rw [isStopped_iff] at hs ⊢
  exact hs.imp h.isRaised (Or.imp h.isRaised h.isRaised)

/-- The three latches may as well be looked at one after the other: what is found raised is raised at the last look, and
if nothing is found, nothing was raised at the first. -/
theorem isStopped_of_looks (h : o.Extends o') (h' : o'.Extends o'') :
    let found := o.isRaised f.session .shutdown || o'.isRaised f.process .shutdown ||
      o''.isRaised f.process .broadcastShutdown
    (found = true → f.isStopped o'' = true) ∧ (found = false → f.isStopped o = false) := by
  intro found
  refine ⟨fun hfound => ?_, fun hnone => ?_⟩
  · rw [isStopped_iff]
    simp only [found, Bool.or_eq_true, or_assoc] at hfound
    exact hfound.imp (h.trans h').isRaised (Or.imp h'.isRaised id)
  · rw [← Bool.not_eq_true, isStopped_iff]
    simp only [found, Bool.or_eq_false_iff, and_assoc] at hnone
    obtain ⟨hsession, hprocess, hbroadcast⟩ := hnone
    rintro (hr | hr | hr)
    · rw [hsession] at hr
      cases hr
    · rw [h.isRaised hr] at hprocess
      cases hprocess
    · rw [(h.trans h').isRaised hr] at hbroadcast
      cases hbroadcast

/-! ## Raising events -/

theorem raiseEvent_eq (o : Office) (event : ControlEvent) :
    f.raiseEvent o event = o.post f.session event.kind.latchType event.kind.mailKey.text event.payload := by
  cases event <;> rfl

/-- The event of a kind that the session's latch stands for; none if it was never raised. -/
def sessionEvent (f : Forwarder) (o : Office) (kind : ControlKind) : Option ControlEvent :=
  (o.valueOf f.session kind.latchType kind.mailKey.text).map kind.eventOf

/-- **An event that is raised becomes the last one of its kind**, and of no other. -/
theorem sessionEvent_raiseEvent (h : o.Orderly) (hm : f.session < o.mailboxes.size) (event : ControlEvent)
    (kind : ControlKind) :
    f.sessionEvent (f.raiseEvent o event) kind = if kind = event.kind then some event else f.sessionEvent o kind := by
  rw [raiseEvent_eq, sessionEvent]
  by_cases hk : kind = event.kind
  · subst hk
    rw [if_pos rfl, Office.valueOf_post_self h hm, Option.map_some, ControlEvent.eventOf_payload]
  · rw [if_neg hk, Office.valueOf_post_of_ne h fun hsame => ControlKind.text_mailKey_ne hk hsame.2.2, sessionEvent]

theorem orderly_raiseEvent (h : o.Orderly) (event : ControlEvent) : (f.raiseEvent o event).Orderly := by
  rw [raiseEvent_eq]
  exact h.post _ _ _ _

theorem extends_raiseEvent (o : Office) (event : ControlEvent) : o.Extends (f.raiseEvent o event) := by
  rw [raiseEvent_eq]
  exact o.extends_post _ _ _ _

/-- Raising an event tells nobody to stop. -/
theorem isStopped_raiseEvent (h : o.Orderly) (event : ControlEvent) :
    f.isStopped (f.raiseEvent o event) = f.isStopped o := by
  rw [raiseEvent_eq]
  refine isStopped_congr fun m key hkey => Office.valueOf_post_of_ne h (fun hsame => ?_) _
  have hother : ∀ kind : ControlKind, ∀ key ∈ [MailKey.shutdown, .broadcastShutdown], key.text ≠ kind.mailKey.text := by
    intro kind
    cases kind <;> decide
  exact hother event.kind key hkey hsame.2.2

/-! ## The queue of packets -/

/-- The packets of the session for the channel. -/
def incoming (f : Forwarder) (o : Office) : Queue Packet :=
  o.queueUnder f.session .packet (MailKey.packetQueue f.channel.kind).text

/-- Whoever asks for the queue gets it. -/
theorem queue_eq (o : Office) : (f.queue o).2.queue .packet (f.queue o).1 = f.incoming o := by
  rw [queue, Office.queue_queueOf, Office.queue_queueOf_self, incoming]

theorem orderly_queue (h : o.Orderly) : (f.queue o).2.Orderly := h.queueOf _ _ _

theorem extends_queue (o : Office) : o.Extends (f.queue o).2 := o.extends_queueOf _ _ _

theorem incoming_queue (o : Office) : f.incoming (f.queue o).2 = f.incoming o := o.queueUnder_queueOf _ _ _ _ _ _

theorem isStopped_queue (o : Office) : f.isStopped (f.queue o).2 = f.isStopped o :=
  isStopped_congr fun _ _ _ => o.valueOf_queueOf _ _ _ _ _ _

theorem incoming_raiseEvent (o : Office) (event : ControlEvent) : f.incoming (f.raiseEvent o event) = f.incoming o := by
  rw [raiseEvent_eq]
  exact o.queueUnder_post _ _ _ _ _ _ _

end Forwarder

namespace PushLoop

variable {f : Forwarder} {env : Environment}

theorem pop_fst (f : Forwarder) (env : Environment) : (pop f env).1 = (f.incoming env.office).tryPop.1 := by
  rw [← f.queue_eq]
  rfl

theorem office_pop (f : Forwarder) (env : Environment) : (pop f env).2.office =
    (f.queue env.office).2.setQueue .packet (f.queue env.office).1 (f.incoming env.office).tryPop.2 := by
  rw [← f.queue_eq]
  rfl

theorem orderly_pop (h : env.office.Orderly) : (pop f env).2.office.Orderly := by
  rw [office_pop]
  exact (Forwarder.orderly_queue h).setQueue _ _ _

theorem extends_pop (f : Forwarder) (env : Environment) : env.office.Extends (pop f env).2.office := by
  rw [office_pop]
  refine (Forwarder.extends_queue env.office).trans (Office.extends_setQueue fun hc => ?_)
  rw [Queue.closed_tryPop, ← f.queue_eq]
  exact hc

/-- Taking a packet tells nobody to stop. -/
theorem isStopped_pop (f : Forwarder) (env : Environment) :
    f.isStopped (pop f env).2.office = f.isStopped env.office := by
  rw [office_pop, ← f.isStopped_queue env.office]
  exact Forwarder.isStopped_congr fun _ _ _ => rfl

/-- **Popping takes the first packet that is pending.** -/
theorem incoming_pop (h : env.office.Orderly) :
    f.incoming (pop f env).2.office = (f.incoming env.office).tryPop.2 := by
  rw [office_pop, Forwarder.incoming, Office.queueUnder_setQueue (Forwarder.orderly_queue h)]
  split
  · rfl
  · next hl =>
    -- The session has no such mailbox, so its queue is open and empty, before and after.
    rw [Forwarder.queue, Office.lookup_queues_queueOf] at hl
    have hnone : (env.office.mailbox f.session).queues.lookup
        ((MailKey.packetQueue f.channel.kind).text, .packet) = none := by
      cases hlookup : (env.office.mailbox f.session).queues.lookup
          ((MailKey.packetQueue f.channel.kind).text, .packet) with
      | none => rfl
      | some number =>
        refine absurd ?_ hl
        split
        · rfl
        · rw [hlookup, Office.queueOf_of_lookup hlookup]
    have hempty : f.incoming env.office = {} := by
      rw [Forwarder.incoming, Office.queueUnder, hnone]
      rfl
    exact (f.incoming_queue env.office).trans (by rw [hempty]; rfl)

end PushLoop

end MediaChannels
