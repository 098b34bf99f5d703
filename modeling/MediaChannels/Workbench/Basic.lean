import MediaChannels.Client
import MediaChannels.Command.Process

/-!
# Workbenches

A workbench keeps everything that users of the library hold, under names of their choice: regions, segments, channels,
bare structures in memory of their own, clients, mailboxes with their latches and queues, sessions and processes.

Several holdings may share a mapping. The owner of a mapped region releases it when nobody holds the mapping any more;
`collect` finds out which regions that are.

* `mem_owned_collect_iff`: what is still owned after collecting.
* `find?_hold`: what was put under a name is found under it.
-/

namespace MediaChannels

/-- A thing on a workbench. Sessions and processes go on without being held and are known by their number. -/
inductive Holding where
  | region (r : Region)
  | segment (s : Segment)
  | channel (h : ChannelHandle)
  | ring (object : Nat) (r : PacketRing)
  | lanes (object : Nat) (l : EventLanes)
  | lock (object : Nat) (l : Seqlock)
  | client (c : Option Client)
  | mailbox (number : Nat)
  | event (r : EventRef)
  | queue (r : QueueRef)
  | session (number : Nat)
  | process (number : Nat)

/-- The region that a holding maps by itself. -/
def Holding.region? : Holding → Option Region
  | region r => some r
  | segment s => some s.region
  | channel h => some h.region
  | client c => c.map (·.handle.region)
  | _ => none

/-- A process, or the exit code that it has left. -/
inductive ProcessEntry where
  | running (p : Process)
  | ended (code : Nat)

/-- Things by their names, and what they are about. -/
structure Workbench where
  machine : Machine := {}
  holdings : List (String × Holding) := []
  cursors : List (String × UInt64) := []
  sessions : Array Session := #[]
  processes : Array ProcessEntry := #[]
  /-- The regions that have to be released. -/
  owned : List Region := []

namespace Workbench

/-- Work at a bench. -/
abbrev Bench := StateM Workbench

variable (w : Workbench)

/-- What is held under a name. -/
def find? (id : String) : Option Holding := w.holdings.lookup id

/-- Whether a session is held under some name. -/
def holdsSession (number : Nat) : Bool :=
  w.holdings.any fun (_, h) =>
    match h with
    | .session n => n == number
    | _ => false

/-- The mappings of sessions that are held or go on by themselves. -/
def sessionMappings : List Nat :=
  (List.range w.sessions.size).filterMap fun number =>
    match w.sessions[number]? with
    | some s => if s.isBusy || w.holdsSession number then some s.handle.region.mapping else none
    | none => none

/-- The mappings that somebody holds. -/
def heldMappings : List Nat :=
  w.holdings.filterMap (fun (_, h) => h.region?.map (·.mapping)) ++ w.sessionMappings

/-- Releases every owned region whose mapping nobody holds. -/
def collect : Workbench :=
  let held := w.heldMappings
  let (keep, gone) := w.owned.partition fun r => held.contains r.mapping
  { w with
    owned := keep
    machine := { w.machine with shared := gone.foldl SharedMemory.release w.machine.shared } }

/-- Puts a thing under a name, in place of what was there. -/
def hold (id : String) (h : Holding) : Bench Unit :=
  modify fun w => { w with holdings := (id, h) :: w.holdings.filter (·.1 != id) }.collect

/-- Puts a thing that owns a region under a name. -/
def holdOwned (id : String) (r : Region) (h : Holding) : Bench Unit := do
  modify fun w => { w with owned := r :: w.owned }
  hold id h

/-- Takes a thing away. -/
def drop (id : String) : Bench Unit :=
  modify fun w => { w with holdings := w.holdings.filter (·.1 != id) }.collect

/-- Works on the machine. -/
def onMachine {α : Type} (work : Machine → α × Machine) : Bench α :=
  modifyGet fun w =>
    let (value, machine) := work w.machine
    (value, { w with machine })

/-- Works on shared memory. -/
def onShared {α : Type} (work : SharedMemory → α × SharedMemory) : Bench α :=
  onMachine fun m =>
    let (value, shared) := work m.shared
    (value, { m with shared })

/-- Works on the mailboxes. -/
def onOffice {α : Type} (work : Office → α × Office) : Bench α :=
  onMachine fun m =>
    let (value, office) := work m.office
    (value, { m with office })

/-- Runs a program on the bytes of an object. -/
def access {α : Type} (object : Nat) (program : Access α) : Bench α := onMachine (·.access object program)

/-- Makes an object of memory that nobody else can find, and runs a program on it. -/
def ownMemory (size : Nat) (program : Access Unit) : Bench Nat := do
  let object ← onShared (·.addObject { size, memory := .zeroed })
  access object program
  return object

/-- Keeps what another name holds under a name too. -/
def clone (id other : String) : Bench Unit := do
  match (← get).find? other with
  | some h => hold id h
  | none => pure ()

/-- The position of a cursor; a new one stands at the beginning. -/
def cursor (name : String) : Bench UInt64 := return ((← get).cursors.lookup name).getD 0

/-- Moves a cursor. -/
def setCursor (name : String) (value : UInt64) : Bench Unit :=
  modify fun w => { w with cursors := (name, value) :: w.cursors.filter (·.1 != name) }

theorem mem_owned_collect_iff {r : Region} :
    r ∈ w.collect.owned ↔ r ∈ w.owned ∧ r.mapping ∈ w.heldMappings := by
  simp [collect, List.partition_eq_filter_filter]

/-- What was put under a name is found under it. -/
theorem find?_hold (id : String) (h : Holding) : ((hold id h).run w).2.find? id = some h := by
  show List.lookup id ((id, h) :: w.holdings.filter (·.1 != id)) = some h
  exact List.lookup_cons_self

end Workbench

end MediaChannels
