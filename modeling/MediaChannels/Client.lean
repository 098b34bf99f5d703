import MediaChannels.Control.Reading
import MediaChannels.Segment

/-!
# Foreign clients

Programs in other languages hold a client: a channel that they are attached to, with a read cursor. They pass buffers
that may be missing or too short, and clients that may be missing; every call has an answer for that.

* `pop_missing`, `pop_of_isLost`: calls that do nothing.
* `fill_length`: a buffer keeps its length.
-/

namespace MediaChannels

/-- A channel with the cursor of its reader. -/
structure Client where
  handle : ChannelHandle
  cursor : UInt64 := 0

/-- A pointer and a length, as a caller passes them: to a buffer of that length, or to nothing. -/
inductive PassedBuffer where
  | given (bytes : List UInt8)
  | missing (length : Nat)
  deriving DecidableEq, Repr

namespace PassedBuffer

/-- The bytes of a buffer; none if it is missing. -/
def bytes : PassedBuffer → List UInt8
  | given bytes => bytes
  | missing _ => []

/-- Whether a buffer is missing that was to hold something. -/
def isLost : PassedBuffer → Bool
  | given _ => false
  | missing length => 0 < length

/-- The buffer with other bytes in it. -/
def map (f : List UInt8 → List UInt8) : PassedBuffer → PassedBuffer
  | given bytes => given (f bytes)
  | missing length => missing length

end PassedBuffer

/-- What a caller passes to have a packet copied: a buffer, and perhaps a flag. -/
structure PopTarget where
  buffer : PassedBuffer
  flag : Option Bool

/-- What becomes of it: the length of the packet, if there was one, and the buffer and the flag afterwards. -/
structure PopResult where
  length : Option Nat
  buffer : PassedBuffer
  flag : Option Bool
  deriving DecidableEq, Repr

namespace Client

/-- The result of a call that finds no packet. -/
def nothing (target : PopTarget) : PopResult := { length := none, buffer := target.buffer, flag := target.flag }

/-- A buffer with as much of the data at its start as it has room for. -/
def fill (buffer data : List UInt8) : List UInt8 :=
  data.take buffer.length ++ buffer.drop (min data.length buffer.length)

/-- Attaches to a channel by the bytes of its segment's name, up to the first zero; a missing name, or one that is no
text, leads nowhere. -/
def attach (s : SharedMemory) (name : Option (List UInt8)) (index : Nat) : Option Client × SharedMemory :=
  match name.bind fun bytes => Utf8.decode? (bytes.takeWhile (· != 0)) with
  | none => (none, s)
  | some name =>
    match Segment.attach s name index with
    | (.ok handle, s) => (some { handle }, s)
    | (.error _, s) => (none, s)

/-- Fetches the next unread packet of a client. -/
def fetch (client : Client) : Access (Option IndexedPacket × Client) := do
  let ring := client.handle.channel.packets
  let walk ← ring.poll client.cursor
  let (packet, walk) ← ring.next walk
  return (packet, { client with cursor := walk.cursor })

/-- Takes the next unread packet: its length, which may exceed that of the buffer, and the part that fits. -/
def pop (client : Option Client) (target : PopTarget) : Access (PopResult × Option Client) :=
  match client with
  | none => pure (nothing target, none)
  | some client =>
    if target.buffer.isLost then pure (nothing target, some client)
    else do
      let (packet, client) ← client.fetch
      match packet with
      | none => return (nothing target, some client)
      | some { packet, .. } =>
        let result : PopResult :=
          { length := some packet.data.length
            buffer := target.buffer.map (fill · packet.data)
            flag := target.flag.map fun _ => packet.marks.idr }
        return (result, some client)

/-- Publishes a packet with the bytes of a buffer. -/
def push (client : Option Client) (data : PassedBuffer) (idr : Bool) : Access Bool :=
  match client with
  | none => pure false
  | some client =>
    if data.isLost then pure false
    else do
      let result ← client.handle.channel.packets.push { data := data.bytes, marks := { idr } }
      return result.toOption.isSome

/-- Sends the control event that a pair encodes. -/
def pushEvent (client : Option Client) (tag : UInt32) (value : Int64) : Access Bool :=
  match client, ControlEvent.decode? tag value with
  | some client, some event => do
    let result ← client.handle.channel.events.push event
    return result.toOption.isSome
  | _, _ => pure false

/-- Sets the active flag of the client's channel. -/
def setActive (client : Option Client) (active : Bool) : Access Unit :=
  match client with
  | none => pure ()
  | some client => client.handle.channel.setActive active

/-- Whether somebody works on the client's channel; nobody does without a client. -/
def isActive (client : Option Client) : Access Bool :=
  match client with
  | none => pure false
  | some client => client.handle.channel.isActive

/-- The number of packets published; zero without a client. -/
def writeIndex (client : Option Client) : Access UInt64 :=
  match client with
  | none => pure 0
  | some client => client.handle.channel.packets.writeIndex

theorem pop_missing (target : PopTarget) : pop none target = pure (nothing target, none) := rfl

theorem pop_of_isLost (client : Client) {target : PopTarget} (h : target.buffer.isLost) :
    pop (some client) target = pure (nothing target, some client) := if_pos h

/-- A buffer keeps its length. -/
theorem fill_length (buffer data : List UInt8) : (fill buffer data).length = buffer.length := by
  simp only [fill, List.length_append, List.length_take, List.length_drop]
  omega

end Client

end MediaChannels
