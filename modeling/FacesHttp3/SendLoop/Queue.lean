import FacesHttp3.Request

/-! # What is queued for a stream

Headers and body chunks wait in two queues for each stream, headers first. A body
attached to a header is cut into chunks by the chunking worker once the header
was sent. -/

namespace FacesHttp3.SendLoop
open FacesHttp3.Request

abbrev StreamId := Nat

/-- A sender into the low priority queue of one channel, named by the channel. -/
abbrev ChunkSender := Nat

inductive HeaderPriority
  | sendHeader
  | sendHeader100
  | sendAdditionnalHeader
  | sendWithPriority
  | openStream
  deriving DecidableEq

inductive BodyType
  | data (data : Bytes) (sender : Option ChunkSender)
  | streamData (data : Bytes) (sender : Option ChunkSender)
  | filePath (filePath : String) (sender : Option ChunkSender)
  | none
  deriving DecidableEq

structure HeaderRequest where
  headers : List Header
  isEnd : Bool
  priorityMode : HeaderPriority
  attachedBody : Option BodyType
  deriving DecidableEq

structure BodyRequest where
  packetId : Nat
  packet : Bytes
  isEnd : Bool
  deriving DecidableEq

/-- `take_data`: the bytes, and the request without them. -/
def BodyRequest.takeData (request : BodyRequest) : Bytes × BodyRequest :=
  (request.packet, { request with packet := [] })

inductive QueuedRequest
  | header (header : HeaderRequest)
  | body (body : BodyRequest)
  | bodyProgression (body : BodyRequest)
  | streamData (body : BodyRequest)
  deriving DecidableEq

def QueuedRequest.isOpening : QueuedRequest → Bool
  | .header request => request.priorityMode = .openStream
  | _ => false

/-- The places a send loop can panic at. -/
inductive Panic
  | http3Conn
  | streamWritable
  | bodyWritten
  | fileOpen
  | noSender
  deriving DecidableEq

/-- What the file system answers about a file body: its length, and its content
when it is opened again for reading. -/
structure FileAnswers where
  len : Option Nat := none
  content : Option Bytes := none

/-- `bytes_len`, which unwraps the file. -/
def BodyType.bytesLen (file : FileAnswers) : BodyType → Except Panic Nat
  | .data bytes _ => .ok bytes.length
  | .streamData bytes _ => .ok bytes.length
  | .filePath _ _ =>
    match file.len with
    | some len => .ok len
    | Option.none => .error .fileOpen
  | .none => .ok 0

def HeaderRequest.attachedBodyLen (file : FileAnswers) (request : HeaderRequest) :
    Except Panic (Option Nat) :=
  match request.attachedBody with
  | some attachedBody =>
    match attachedBody.bytesLen file with
    | .ok len => .ok (some len)
    | .error panic => .error panic
  | none => .ok none

def responseEndsOnHeaders (isEnd : Bool) (attachedBodyLen : Option Nat) : Bool :=
  isEnd || attachedBodyLen == some 0

def nonEmptyAttachedBody (attachedBodyLen : Option Nat) : Option Nat :=
  attachedBodyLen.filter fun len => 0 < len

/-! ## The chunking station -/

/-- A body being cut; `reader` is what is left of it. -/
structure ChunkableBody where
  streamId : StreamId
  reader : Bytes
  sender : ChunkSender
  bodyLen : Nat
  packetId : Nat
  bytesWritten : Nat

def ChunkableBody.newData (sender : ChunkSender) (streamId : StreamId) (data : Bytes) :
    ChunkableBody where
  streamId := streamId
  reader := data
  sender := sender
  bodyLen := data.length
  packetId := 0
  bytesWritten := 0

/-- `ChunkingStation::send_response`: the body enters the station; a file that
cannot be opened any more does not. -/
def sendResponse (streamId : StreamId) (file : FileAnswers) :
    BodyType → Except Panic (Option ChunkableBody)
  | .data _ none | .streamData _ none | .filePath _ none => .error .noSender
  | .data data (some sender) => .ok (some (.newData sender streamId data))
  | .streamData data (some sender) => .ok (some (.newData sender streamId data))
  | .filePath _ (some sender) => .ok (file.content.map (.newData sender streamId))
  | .none => .ok none

def chunkSize : Nat := 8192

/-- One read of the worker: the chunk it queues, and the body it puts back into
the station unless this was the end. -/
def ChunkableBody.read (chunkable : ChunkableBody) : QueuedRequest × Option ChunkableBody :=
  let packet := chunkable.reader.take chunkSize
  let isEnd := packet.length + chunkable.bytesWritten == chunkable.bodyLen
  let item := .body { packetId := chunkable.packetId, packet, isEnd }
  let rest := { chunkable with
    reader := chunkable.reader.drop chunkSize
    packetId := chunkable.packetId + 1
    bytesWritten := chunkable.bytesWritten + packet.length }
  (item, if isEnd then none else some rest)

/-- The two queues of a stream, and the cancellation flag beside them. -/
structure Channel where
  sender : ChunkSender
  high : List QueuedRequest := []
  low : List QueuedRequest := []
  reset : Bool := false

/-- `try_pop`: the high priority queue first. -/
def Channel.tryPop (channel : Channel) : Option (QueuedRequest × Channel) :=
  match channel.high, channel.low with
  | item :: high, _ => some (item, { channel with high })
  | [], item :: low => some (item, { channel with low })
  | [], [] => none

end FacesHttp3.SendLoop
