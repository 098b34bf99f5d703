import MediaChannels.Proofs.Mail.Orderly

/-!
# Uses of mailboxes

The threads of a process make mailboxes, ask them for latches and queues, raise latches, and push into queues, pop from
them or close them, in any order and with any handle that they have ever got.

* `MailUse`: one such use; `MailUse.orderly_perform`, `MailUse.extends_perform`: what every use keeps.
* `pending_perform_sublist`: items leave a queue in the order in which they came.
* `pending_queueUnder_perform`: the same of the queue that a mailbox has under a key, however it is reached.
-/

namespace MediaChannels

/-! ## Uses of a queue -/

/-- What producers and consumers do with a queue. -/
inductive QueueUse (α : Type) where
  | push (a : α)
  | pop
  | drain
  | close

namespace Queue

variable {α : Type}

/-- What is popped comes first among what is pending. -/
theorem tryPop_append_pending (q : Queue α) : q.tryPop.1.toList ++ q.tryPop.2.pending = q.pending := by
  obtain ⟨items, closed⟩ := q
  cases closed <;> cases items <;> rfl

@[simp] theorem closed_tryPop (q : Queue α) : q.tryPop.2.closed = q.closed := by
  obtain ⟨items, closed⟩ := q
  cases closed <;> cases items <;> rfl

end Queue

namespace QueueUse

variable {α : Type}

/-- The queue after a use. -/
def perform : QueueUse α → Queue α → Queue α
  | push a, q => q.push a
  | pop, q => q.tryPop.2
  | drain, q => q.drain.2
  | close, q => q.close

/-- The items that a use appends; what is pushed into a closed queue is dropped. -/
def appended : QueueUse α → Queue α → List α
  | push a, q => if q.closed then [] else [a]
  | pop, _ | drain, _ | close, _ => []

theorem closed_perform (use : QueueUse α) {q : Queue α} (h : q.closed = true) : (use.perform q).closed = true := by
  cases use with
  | push a =>
    rw [perform, Queue.push, if_pos h]
    exact h
  | pop => rwa [perform, Queue.closed_tryPop]
  | drain =>
    rw [perform, Queue.drain, if_pos h]
    exact h
  | close => rfl

/-- **Items leave a queue in the order in which they came.** -/
theorem pending_perform_sublist (use : QueueUse α) (q : Queue α) :
    (use.perform q).pending.Sublist (q.pending ++ use.appended q) := by
  cases use with
  | push a =>
    rw [perform, appended, Queue.pending_push]
    split
    · exact List.nil_sublist _
    · exact .refl _
  | pop =>
    rw [perform, appended, List.append_nil, ← q.tryPop_append_pending]
    exact List.sublist_append_right _ _
  | drain =>
    have hempty : q.drain.2.pending = [] := by
      obtain ⟨items, closed⟩ := q
      cases closed <;> rfl
    rw [perform, hempty]
    exact List.nil_sublist _
  | close =>
    rw [perform, Queue.pending_close]
    exact List.nil_sublist _

end QueueUse

/-! ## Uses of an office -/

/-- What threads do with mailboxes, latches and queues. -/
inductive MailUse where
  | addMailbox
  | addEvent (t : ItemType)
  | addQueue (t : ItemType)
  | event (mailbox : Nat) (t : ItemType) (key : String)
  | queueOf (mailbox : Nat) (t : ItemType) (key : String)
  | raise (t : ItemType) (number : Nat) (value : t.Carrier)
  | onQueue (t : ItemType) (number : Nat) (use : QueueUse t.Carrier)

namespace MailUse

/-- The office after a use. -/
def perform : MailUse → Office → Office
  | addMailbox, o => o.addMailbox.2
  | addEvent t, o => (o.addEvent t).2
  | addQueue t, o => (o.addQueue t).2
  | event mailbox t key, o => (o.event mailbox t key).2
  | queueOf mailbox t key, o => (o.queueOf mailbox t key).2
  | raise t number value, o => o.raise t number value
  | onQueue t number use, o => o.setQueue t number (use.perform (o.queue t number))

/-- The packets that a use appends to the queue that a mailbox has under a key. -/
def packetsFor (o : Office) (mailbox : Nat) (key : String) : MailUse → List Packet
  | onQueue .packet number use =>
    if (o.mailbox mailbox).queues.lookup (key, .packet) = some number then use.appended (o.queue .packet number) else []
  | _ => []

variable {o : Office}

theorem orderly_perform (use : MailUse) (h : o.Orderly) : (use.perform o).Orderly := by
  cases use with
  | addMailbox => exact h.addMailbox
  | addEvent t => exact h.addEvent t
  | addQueue t => exact h.addQueue t
  | event mailbox t key => exact h.event mailbox t key
  | queueOf mailbox t key => exact h.queueOf mailbox t key
  | raise t number value => exact h.raise t number value
  | onQueue t number use => exact h.setQueue t number _

theorem extends_perform (use : MailUse) (o : Office) : o.Extends (use.perform o) := by
  cases use with
  | addMailbox => exact o.extends_addMailbox
  | addEvent t => exact o.extends_addEvent t
  | addQueue t => exact o.extends_addQueue t
  | event mailbox t key => exact o.extends_event mailbox t key
  | queueOf mailbox t key => exact o.extends_queueOf mailbox t key
  | raise t number value => exact o.extends_raise t number value
  | onQueue t number use => exact Office.extends_setQueue use.closed_perform

/-- **Packets leave the queue that a mailbox has under a key in the order in which they came**, however it is used. -/
theorem pending_queueUnder_perform (h : o.Orderly) (use : MailUse) (mailbox : Nat) (key : String) :
    ((use.perform o).queueUnder mailbox .packet key).pending.Sublist
      ((o.queueUnder mailbox .packet key).pending ++ use.packetsFor o mailbox key) := by
  have hsame {o' : Office} {more : List Packet}
      (heq : o'.queueUnder mailbox .packet key = o.queueUnder mailbox .packet key) :
      (o'.queueUnder mailbox .packet key).pending.Sublist ((o.queueUnder mailbox .packet key).pending ++ more) := by
    rw [heq]
    exact List.sublist_append_left _ _
  cases use with
  | addMailbox => exact hsame (by simp only [perform, Office.queueUnder, Office.mailbox_addMailbox]; rfl)
  | addEvent t => exact hsame rfl
  | addQueue t =>
    have hqueue : (o.addQueue t).2.queue .packet = o.queue .packet := funext (o.queue_addQueue t .packet)
    exact hsame (by rw [perform, Office.queueUnder, hqueue]; rfl)
  | event m t k => exact hsame (o.queueUnder_event m t k mailbox .packet key)
  | queueOf m t k => exact hsame (o.queueUnder_queueOf m t k mailbox .packet key)
  | raise t number value => exact hsame rfl
  | onQueue t number use =>
    by_cases ht : t = .packet
    · subst ht
      rw [perform, Office.queueUnder_setQueue h, packetsFor]
      by_cases hl : (o.mailbox mailbox).queues.lookup (key, .packet) = some number
      · have hunder : o.queueUnder mailbox .packet key = o.queue .packet number := by
          rw [Office.queueUnder, hl, Option.map_some, Option.getD_some]
        rw [if_pos hl, if_pos hl, hunder]
        exact use.pending_perform_sublist _
      · rw [if_neg hl, if_neg hl]
        exact List.sublist_append_left _ _
    · exact hsame (o.queueUnder_setQueue_of_ne ht number _ mailbox key)

end MailUse

end MediaChannels
