import MediaChannels.Workbench.Basic

/-!
# Regions, segments and structures

Making regions, segments and bare structures, and using their channels, rings, lanes and locks.
-/

namespace MediaChannels

namespace PacketRing

variable (ring : PacketRing)

/-- A walk during which others push: packets that come before the first is fetched, packets that come after the first,
the second and so on is fetched, and where to stop if the walk goes on. -/
structure BusyWalk where
  limit : Option Nat := none
  before : List Packet := []
  after : Nat → List Packet := fun _ => []

/-- Fetches packets until a walk ends; `fetched` have been fetched before. -/
def fetchAll (busy : BusyWalk) : Nat → Nat → Poll → Access (List IndexedPacket × Poll)
  | 0, _, walk => pure ([], walk)
  | fuel + 1, fetched, walk =>
    if busy.limit = some fetched then pure ([], walk)
    else do
      let (packet, walk) ← ring.next walk
      match packet with
      | none => return ([], walk)
      | some packet =>
        ring.pushAll (busy.after (fetched + 1))
        let (packets, walk) ← fetchAll busy fuel (fetched + 1) walk
        return (packet :: packets, walk)

/-- Walks over what is unread after a cursor. -/
def walk (busy : BusyWalk) (cursor : UInt64) : Access (List IndexedPacket × Poll) := do
  let poll ← ring.poll cursor
  ring.pushAll busy.before
  let slots ← ring.queueSize
  ring.fetchAll busy (slots.toNat + 1) 0 poll

end PacketRing

namespace Workbench

/-- Creates a region. -/
def createRegion (id name : String) (size : Nat) : Bench (Except Error Region) := do
  match ← onShared (·.create name size) with
  | .error e => return .error e
  | .ok r =>
    holdOwned id r (.region r)
    return .ok r

/-- Opens a region. -/
def openRegion (id name : String) : Bench (Except Error Region) := do
  match ← onShared (·.openRegion name) with
  | .error e => return .error e
  | .ok r =>
    hold id (.region r)
    return .ok r

/-- Makes a name stand for something that is no memory. -/
def blockName (name : String) : Bench Unit := onShared fun s => ((), s.setName name .blocked)

/-- Creates a segment. -/
def createSegment (id name : String) (sizes : Sizes) : Bench (Except Error Segment) := do
  match ← onShared (Segment.create · name sizes) with
  | .error e => return .error e
  | .ok s =>
    holdOwned id s.region (.segment s)
    return .ok s

/-- Attaches to a channel. -/
def attach (id name : String) (index : Nat) : Bench (Except Error ChannelHandle) := do
  match ← onShared (Segment.attach · name index) with
  | .error e => return .error e
  | .ok h =>
    hold id (.channel h)
    return .ok h

/-- Takes a channel of a segment, which shares its mapping. -/
def takeChannel (id segment : String) (kind : ChannelKind) : Bench Unit := do
  match (← get).find? segment with
  | some (.segment s) => hold id (.channel (s.channel kind))
  | _ => pure ()

/-- Attaches a client. -/
def attachClient (id : String) (name : Option (List UInt8)) (index : Nat) : Bench Bool := do
  let client ← onShared (Client.attach · name index)
  hold id (.client client)
  return client.isSome

/-- Makes a bare ring and gives its size. -/
def makeRing (id : String) (queueSize slotSize : Nat) : Bench Nat := do
  let size := PacketRing.size queueSize slotSize
  let ring : PacketRing := ⟨0⟩
  let object ← ownMemory size (ring.init queueSize slotSize)
  hold id (.ring object ring)
  return size

/-- Makes bare lanes and gives their size. -/
def makeLanes (id : String) (slots : Nat) : Bench Nat := do
  let size := EventLanes.size slots
  let lanes : EventLanes := ⟨0, slots⟩
  let object ← ownMemory size lanes.init
  hold id (.lanes object lanes)
  return size

/-- Makes a bare lock and gives its size. -/
def makeLock (id : String) (capacity : Nat) : Bench Nat := do
  let size := Seqlock.size capacity
  let lock : Seqlock := ⟨0⟩
  let object ← ownMemory size (lock.init capacity)
  hold id (.lock object lock)
  return size

/-- The object of memory behind a thing. -/
def object? (id : String) : Bench (Option Nat) := do
  match (← get).find? id with
  | some (.ring object _) | some (.lanes object _) | some (.lock object _) => return some object
  | some h => return h.region?.map (·.object)
  | none => return none

/-- The ring of a thing. -/
def ring? (id : String) : Bench (Option (Nat × PacketRing)) := do
  match (← get).find? id with
  | some (.ring object ring) => return some (object, ring)
  | some (.channel h) => return some (h.region.object, h.channel.packets)
  | some (.client (some c)) => return some (c.handle.region.object, c.handle.channel.packets)
  | _ => return none

/-- The lanes of a thing. -/
def lanes? (id : String) : Bench (Option (Nat × EventLanes)) := do
  match (← get).find? id with
  | some (.lanes object lanes) => return some (object, lanes)
  | some (.channel h) => return some (h.region.object, h.channel.events)
  | some (.client (some c)) => return some (c.handle.region.object, c.handle.channel.events)
  | _ => return none

/-- Runs a program on the bytes behind a thing; nothing if there are none. -/
def onBytes {α : Type} (id : String) (program : Access α) : Bench (Option α) := do
  match ← object? id with
  | some object => return some (← access object program)
  | none => return none

/-- Runs a program on the ring of a thing. -/
def onRing {α : Type} (id : String) (program : PacketRing → Access α) : Bench (Option α) := do
  match ← ring? id with
  | some (object, ring) => return some (← access object (program ring))
  | none => return none

/-- Runs a program on the lanes of a thing. -/
def onLanes {α : Type} (id : String) (program : EventLanes → Access α) : Bench (Option α) := do
  match ← lanes? id with
  | some (object, lanes) => return some (← access object (program lanes))
  | none => return none

/-- Runs a program on a bare lock. -/
def onLock {α : Type} (id : String) (program : Seqlock → Access α) : Bench (Option α) := do
  match (← get).find? id with
  | some (.lock object lock) => return some (← access object (program lock))
  | _ => return none

/-- Runs a program on a channel. -/
def onChannel {α : Type} (id : String) (program : Channel → Access α) : Bench (Option α) := do
  match (← get).find? id with
  | some (.channel h) => return some (← access h.region.object (program h.channel))
  | _ => return none

/-- The status of all channels of a segment. -/
def segmentStatus (s : Segment) : Bench (List ChannelStatus) :=
  access s.region.object (ChannelKind.all.mapM fun kind => (s.channel kind).channel.status)

/-- Lets a client act; a client that is missing acts too. -/
def onClient {α : Type} (id : String) (program : Option Client → Access (α × Option Client)) : Bench (Option α) := do
  match (← get).find? id with
  | some (.client none) => return some ((program none).run .zeroed).1.1
  | some (.client (some c)) =>
    let (value, c) ← access c.handle.region.object (program (some c))
    modify fun w => { w with holdings := (id, .client c) :: w.holdings.filter (·.1 != id) }
    return some value
  | _ => return none

/-- Walks over what is unread after a cursor, which moves along. -/
def poll (id cursorName : String) (busy : PacketRing.BusyWalk) : Bench (Option (List IndexedPacket × Poll)) := do
  let start ← cursor cursorName
  let found ← onRing id (·.walk busy start)
  if let some (_, walk) := found then setCursor cursorName walk.cursor
  return found

end Workbench

end MediaChannels
