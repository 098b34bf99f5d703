import MediaChannels.Channel.Kind
import MediaChannels.Mail.Latch
import MediaChannels.Mail.Queue
import MediaChannels.Packet

/-!
# Mailboxes

The threads of a process share latches and queues through mailboxes. A mailbox finds a latch, or a queue, by a key and
the type of what it carries, and makes it when it is asked for the first time. Latches and queues live in the office and
not in the mailbox, so a handle of one stays good when every handle of its mailbox is gone.

* `Shelves.get_set`, `Shelves.get_set_of_ne`: types do not get in each other's way.
* `event_event`: asking twice gives the same latch.
-/

namespace MediaChannels

/-- The types of what latches and queues carry. -/
inductive ItemType where
  | flag
  | number
  | word
  | text
  | packet
  /-- Any other type. Mail does not look into what it carries, so its values are known by numbers. -/
  | other (id : Nat)
  deriving DecidableEq, Repr

/-- The values of an item type. -/
abbrev ItemType.Carrier : ItemType → Type
  | flag => Bool
  | number => Int32
  | word => UInt64
  | text => String
  | packet => Packet
  | other _ => Nat

/-- One family of things for each item type. -/
structure Shelves (F : Type → Type) where
  flags : F Bool
  numbers : F Int32
  words : F UInt64
  texts : F String
  packets : F Packet
  others : Nat → F Nat

namespace Shelves

variable {F : Type → Type}

/-- The things of a type. -/
def get (s : Shelves F) : (t : ItemType) → F t.Carrier
  | .flag => s.flags
  | .number => s.numbers
  | .word => s.words
  | .text => s.texts
  | .packet => s.packets
  | .other id => s.others id

/-- Replaces the things of a type. -/
def set (s : Shelves F) : (t : ItemType) → F t.Carrier → Shelves F
  | .flag, x => { s with flags := x }
  | .number, x => { s with numbers := x }
  | .word, x => { s with words := x }
  | .text, x => { s with texts := x }
  | .packet, x => { s with packets := x }
  | .other id, x => { s with others := fun id' => if id' = id then x else s.others id' }

@[simp] theorem get_set (s : Shelves F) (t : ItemType) (x : F t.Carrier) : (s.set t x).get t = x := by
  cases t with
  | other id => exact if_pos rfl
  | _ => rfl

theorem get_set_of_ne (s : Shelves F) {t u : ItemType} (x : F t.Carrier) (h : t ≠ u) :
    (s.set t x).get u = s.get u := by
  cases t <;> cases u <;> try first | rfl | exact absurd rfl h
  exact if_neg fun hid => h (congrArg _ hid.symm)

end Shelves

/-- The keys that producers, forwarders and lifecycle code agree on. -/
inductive MailKey where
  | shutdown
  | broadcastShutdown
  | videoPackets
  | audioPackets
  | inputPackets
  | bitrate
  | framerate
  | idr
  | pointer
  deriving DecidableEq, Repr

namespace MailKey

/-- The text of a key. -/
def text : MailKey → String
  | shutdown => "shutdown"
  | broadcastShutdown => "broadcast_shutdown"
  | videoPackets => "video_packets"
  | audioPackets => "audio_packets"
  | inputPackets => "input_packets"
  | bitrate => "bitrate"
  | framerate => "framerate"
  | idr => "idr"
  | pointer => "pointer"

/-- The key of the queue that feeds a channel. -/
def packetQueue : ChannelKind → MailKey
  | .video0 | .video1 => videoPackets
  | .audio => audioPackets
  | .input => inputPackets

end MailKey

/-- What a mailbox has registered: the number of a latch, or of a queue, under a key and a type. -/
abbrev Register := List ((String × ItemType) × Nat)

/-- The two registers of a mailbox. -/
structure Mailbox where
  events : Register := []
  queues : Register := []

/-- A mailbox that nobody has asked for anything. -/
instance : Inhabited Mailbox := ⟨{}⟩

/-- All mailboxes, latches and queues. Each is known by its number, latches and queues by their type as well. -/
structure Office where
  mailboxes : Array Mailbox
  events : Shelves fun α => Array (Latch α)
  queues : Shelves fun α => Array (Queue α)

/-- A latch of the office. -/
structure EventRef where
  type : ItemType
  number : Nat
  deriving DecidableEq, Repr

/-- A queue of the office. -/
structure QueueRef where
  type : ItemType
  number : Nat
  deriving DecidableEq, Repr

namespace Office

/-- An office without anything. -/
def empty : Office :=
  { mailboxes := #[]
    events := { flags := #[], numbers := #[], words := #[], texts := #[], packets := #[], others := fun _ => #[] }
    queues := { flags := #[], numbers := #[], words := #[], texts := #[], packets := #[], others := fun _ => #[] } }

variable (o : Office)

/-- Makes a mailbox. -/
def addMailbox : Nat × Office := (o.mailboxes.size, { o with mailboxes := o.mailboxes.push {} })

/-- Makes a latch that no mailbox knows. -/
def addEvent (t : ItemType) : Nat × Office :=
  let latches := o.events.get t
  (latches.size, { o with events := o.events.set t (latches.push {}) })

/-- Makes a queue that no mailbox knows. -/
def addQueue (t : ItemType) : Nat × Office :=
  let queues := o.queues.get t
  (queues.size, { o with queues := o.queues.set t (queues.push {}) })

/-- The mailbox with a number. -/
def mailbox (number : Nat) : Mailbox := o.mailboxes[number]?.getD default

/-- The latch with a number. -/
def latch (t : ItemType) (number : Nat) : Latch t.Carrier := (o.events.get t)[number]?.getD default

/-- The queue with a number. -/
def queue (t : ItemType) (number : Nat) : Queue t.Carrier := (o.queues.get t)[number]?.getD default

/-- Replaces a latch. -/
def setLatch (t : ItemType) (number : Nat) (l : Latch t.Carrier) : Office :=
  { o with events := o.events.set t ((o.events.get t).setIfInBounds number l) }

/-- Replaces a queue. -/
def setQueue (t : ItemType) (number : Nat) (q : Queue t.Carrier) : Office :=
  { o with queues := o.queues.set t ((o.queues.get t).setIfInBounds number q) }

/-- The latch that a mailbox has under a key, made if it is asked for the first time. -/
def event (mailbox : Nat) (t : ItemType) (key : String) : Nat × Office :=
  let box := o.mailbox mailbox
  match box.events.lookup (key, t) with
  | some number => (number, o)
  | none =>
    let (number, o) := o.addEvent t
    let box := { box with events := ((key, t), number) :: box.events }
    (number, { o with mailboxes := o.mailboxes.setIfInBounds mailbox box })

/-- The queue that a mailbox has under a key, made if it is asked for the first time. -/
def queueOf (mailbox : Nat) (t : ItemType) (key : String) : Nat × Office :=
  let box := o.mailbox mailbox
  match box.queues.lookup (key, t) with
  | some number => (number, o)
  | none =>
    let (number, o) := o.addQueue t
    let box := { box with queues := ((key, t), number) :: box.queues }
    (number, { o with mailboxes := o.mailboxes.setIfInBounds mailbox box })

/-- Raises a latch. -/
def raise (t : ItemType) (number : Nat) (value : t.Carrier) : Office :=
  o.setLatch t number ((o.latch t number).raise value)

/-- Raises the shutdown latch of a mailbox. -/
def shutDown (mailbox : Nat) : Office :=
  let (number, o) := o.event mailbox .flag MailKey.shutdown.text
  o.raise .flag number true

/-- Closes the packet queue of a mailbox that feeds a channel. -/
def closePackets (mailbox : Nat) (kind : ChannelKind) : Office :=
  let (number, o) := o.queueOf mailbox .packet (MailKey.packetQueue kind).text
  o.setQueue .packet number (o.queue .packet number).close

/-- Whether the latch of flags that a mailbox has under a key is raised; a latch never asked for is not. -/
def isRaised (mailbox : Nat) (key : MailKey) : Bool :=
  match (o.mailbox mailbox).events.lookup (key.text, .flag) with
  | some number => (o.latch .flag number).isRaised
  | none => false

theorem event_of_lookup {o : Office} {mailbox number : Nat} {t : ItemType} {key : String}
    (h : (o.mailbox mailbox).events.lookup (key, t) = some number) : o.event mailbox t key = (number, o) := by
  simp only [event, h]

/-- A latch that was asked for is registered. -/
theorem lookup_event {mailbox : Nat} (h : mailbox < o.mailboxes.size) (t : ItemType) (key : String) :
    ((o.event mailbox t key).2.mailbox mailbox).events.lookup (key, t) = some (o.event mailbox t key).1 := by
  cases hl : (o.mailbox mailbox).events.lookup (key, t) with
  | some number => rw [event_of_lookup hl, hl]
  | none =>
    simp only [event, hl]
    simp [addEvent, Office.mailbox, h]

/-- Asking twice gives the same latch. -/
theorem event_event {mailbox : Nat} (h : mailbox < o.mailboxes.size) (t : ItemType) (key : String) :
    ((o.event mailbox t key).2.event mailbox t key).1 = (o.event mailbox t key).1 := by
  rw [event_of_lookup (o.lookup_event h t key)]

end Office

end MediaChannels
