import MediaChannels.Workbench.Basic

/-!
# Mailboxes on a bench

Making mailboxes and asking them for latches and queues.

* `sameThing_comm`: whether two things are the same does not depend on their order.
-/

namespace MediaChannels.Workbench

/-- The mailbox under a name. -/
def mailbox? (id : String) : Bench (Option Nat) := do
  match (← get).find? id with
  | some (.mailbox number) => return some number
  | _ => return none

/-- The mailbox under a name, or else a new one. -/
def mailboxOrNew (id : Option String) : Bench Nat := do
  match ← id.elim (pure none) mailbox? with
  | some number => return number
  | none => onOffice (·.addMailbox)

/-- Keeps a mailbox: the one under another name, or a new one. -/
def keepMailbox (id : String) (other : Option String) : Bench Unit := do
  hold id (.mailbox (← mailboxOrNew other))

/-- Keeps a latch: one of a mailbox, or one of its own. -/
def keepEvent (id : String) (t : ItemType) (mail : Option String) (key : String) : Bench Unit := do
  let number ← match ← mail.elim (pure none) mailbox? with
    | some mailbox => onOffice (·.event mailbox t key)
    | none => onOffice (·.addEvent t)
  hold id (.event ⟨t, number⟩)

/-- Keeps a queue: one of a mailbox, or one of its own. -/
def keepQueue (id : String) (t : ItemType) (mail : Option String) (key : String) : Bench Unit := do
  let number ← match ← mail.elim (pure none) mailbox? with
    | some mailbox => onOffice (·.queueOf mailbox t key)
    | none => onOffice (·.addQueue t)
  hold id (.queue ⟨t, number⟩)

/-- Whether two holdings are handles of one mailbox, one latch or one queue. -/
def sameThing : Holding → Holding → Bool
  | .mailbox a, .mailbox b => a == b
  | .event a, .event b => a == b
  | .queue a, .queue b => a == b
  | _, _ => false

/-- Whether two names hold the same mailbox, latch or queue. -/
def areSame (a b : String) : Bench Bool := do
  let w ← get
  match w.find? a, w.find? b with
  | some a, some b => return sameThing a b
  | _, _ => return false

/-- A latch. -/
def latch (r : EventRef) : Bench (Latch r.type.Carrier) := return (← get).machine.office.latch r.type r.number

/-- A queue. -/
def queue (r : QueueRef) : Bench (Queue r.type.Carrier) := return (← get).machine.office.queue r.type r.number

/-- Works on a latch. -/
def onLatch {α : Type} (r : EventRef) (work : Latch r.type.Carrier → α × Latch r.type.Carrier) : Bench α :=
  onOffice fun o =>
    let (value, l) := work (o.latch r.type r.number)
    (value, o.setLatch r.type r.number l)

/-- Works on a queue. -/
def onQueue {α : Type} (r : QueueRef) (work : Queue r.type.Carrier → α × Queue r.type.Carrier) : Bench α :=
  onOffice fun o =>
    let (value, q) := work (o.queue r.type r.number)
    (value, o.setQueue r.type r.number q)

theorem sameThing_comm (a b : Holding) : sameThing a b = sameThing b a := by
  cases a <;> cases b <;> simp [sameThing, Bool.beq_comm]

end MediaChannels.Workbench
