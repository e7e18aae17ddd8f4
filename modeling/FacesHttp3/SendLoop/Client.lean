import FacesHttp3.SendLoop.Queue

/-! # Sending on one stream

The send loop keeps its state in maps of the client, keyed by the stream. Each of
its functions reads and writes the entries of one stream only, so they are
translated on these entries. What the transport takes is the environment's
choice. -/

namespace FacesHttp3.SendLoop
open FacesHttp3.Request

inductive H3Error
  | done
  | streamBlocked
  | transportDone
  | other
  deriving DecidableEq

/-- What the transport accepted of a stream: the bytes, the end of the stream, and
whether a call failed, after which all later ones do. -/
structure Wire where
  accepted : Bytes := []
  fin : Bool := false
  failed : Bool := false

/-- `send_body` of the transport, which may take fewer bytes than it is offered.
The end of the stream is accepted with the last byte of the call that has it. -/
def Wire.sendBody (wire : Wire) (body : Bytes) (fin : Bool) (answer : Except H3Error Nat) :
    Except H3Error Nat × Wire :=
  if wire.failed then (.error .other, wire)
  else match answer with
  | .ok n =>
    let n := min n body.length
    (.ok n, { wire with
      accepted := wire.accepted ++ body.take n
      fin := wire.fin || (fin && n == body.length) })
  | .error .done => (.error .done, wire)
  | .error e => (.error e, { wire with failed := true })

/-- Headers may end the stream too. -/
def Wire.sendHeaders (wire : Wire) (fin : Bool) (answer : Except H3Error Unit) : Wire :=
  match answer with
  | .ok () => { wire with fin := wire.fin || fin }
  | .error _ => wire

structure PartialResponse where
  headers : Option (List Header)
  body : Bytes
  written : Nat

/-- A client's entries for one stream. `parkings` records what was popped and what
was put back of it whenever an item was parked. -/
structure StreamEntries where
  partialResponse : Option PartialResponse := none
  headersSendingTracker : Option Bool := none
  bodySendingTracker : Option (Nat × Nat) := none
  pendingBodyQueue : List QueuedRequest := []
  channel : Option Channel := none
  wire : Wire := {}
  parkings : List (QueuedRequest × QueuedRequest) := []

/-- The answers a step of the loop gets, from the transport and the file system. -/
structure Answers where
  headers : Except H3Error Unit := .ok ()
  body : Except H3Error Nat := .ok 0
  fin : Except H3Error Nat := .ok 0
  file : FileAnswers := {}

namespace StreamEntries

def headersSend (entries : StreamEntries) : Bool := entries.headersSendingTracker.getD false

def setHeadersSend (entries : StreamEntries) (value : Bool) : StreamEntries :=
  { entries with headersSendingTracker := some value }

def setBodySizeToBodySendingTracker (entries : StreamEntries) (bodySize : Nat) : StreamEntries :=
  { entries with bodySendingTracker := some (0, bodySize) }

def setWrittenToBodySendingTracker (entries : StreamEntries) (written : Nat) : StreamEntries :=
  { entries with bodySendingTracker := entries.bodySendingTracker.map fun e => (e.1 + written, e.2) }

def getWritten (entries : StreamEntries) : Nat × Nat := entries.bodySendingTracker.getD (0, 0)

def isBodyTotallyWritten (entries : StreamEntries) : Bool :=
  match entries.bodySendingTracker with
  | some (written, total) => written == total
  | none => false

def cleanClient (entries : StreamEntries) : StreamEntries :=
  { entries with headersSendingTracker := none, partialResponse := none }

/-- `push_item_on_front` of the pending queue. -/
def park (entries : StreamEntries) (popped parked : QueuedRequest) : StreamEntries :=
  { entries with
    pendingBodyQueue := parked :: entries.pendingBodyQueue
    parkings := entries.parkings ++ [(popped, parked)] }

def removeStreamQueue (entries : StreamEntries) : StreamEntries :=
  { entries with pendingBodyQueue := [] }

/-- `remove_stream`: what is still queued is lost. -/
def removeStream (entries : StreamEntries) : StreamEntries := { entries with channel := none }

/-- The stream is shut down in both directions: nothing more is accepted. -/
def resetFailedStream (entries : StreamEntries) : StreamEntries :=
  { entries with wire := { entries.wire with failed := true } }
    |>.cleanClient |>.removeStreamQueue |>.removeStream

end StreamEntries

/-- `client.http3_conn.as_mut().unwrap()` before `next`. -/
def withHttp3Conn {α : Type} (http3Conn : Bool) (next : α) : Except Panic α :=
  if http3Conn then .ok next else .error .http3Conn

/-- A blocked `send_body` counts as none written, another error is returned. -/
def writtenOf (result : Except H3Error Nat) : Option Nat :=
  match result with
  | .ok v => some v
  | .error .done => some 0
  | .error _ => none

/-- `send_body_response` and `send_body_response_progression` up to the flag: what
was not taken becomes the partial response. The result is the count written. -/
def sendData (http3Conn : Bool) (entries : StreamEntries) (data : Bytes) (fin : Bool)
    (answer : Except H3Error Nat) : Except Panic (StreamEntries × Option Nat) :=
  withHttp3Conn http3Conn <|
    let (result, wire) := entries.wire.sendBody data fin answer
    let entries := { entries with wire }
    match writtenOf result with
    | none => (entries, none)
    | some written =>
      let entries :=
        if written < data.length then
          { entries with partialResponse := some { headers := none, body := data, written } }
        else entries
      (entries.setWrittenToBodySendingTracker written, some written)

/-- The flag is set when everything was written before. -/
def sendBodyResponse (http3Conn : Bool) (entries : StreamEntries) (data : Bytes)
    (answer : Except H3Error Nat) : Except Panic (StreamEntries × Option Nat) :=
  let (alreadyWritten, totalLen) := entries.getWritten
  sendData http3Conn entries data (alreadyWritten == totalLen) answer

def sendBodyResponseProgression (http3Conn : Bool) (entries : StreamEntries) (data : Bytes)
    (answer : Except H3Error Nat) : Except Panic (StreamEntries × Option Nat) :=
  sendData http3Conn entries data false answer

/-! ## `handle_writable` -/

/-- The empty send that ends the stream, made on either way through
`handle_writable` when `due`: `none` is an error. -/
def sendEndIf (due : Prop) [Decidable due] (wire : Wire) (answer : Except H3Error Nat) :
    Option Nat × Wire :=
  if due then
    let (result, wire) := wire.sendBody [] true answer
    (writtenOf result, wire)
  else (some 0, wire)

/-- Behind the headers of a partial response. `none` where the source returns
early. -/
def handleWritableBody (entries : StreamEntries) (resp : PartialResponse) (answers : Answers) :
    Except Panic (StreamEntries × Option Bool) :=
  let (amountWritten, totalToWrite) := entries.getWritten
  if resp.body.length < resp.written then .error .bodyWritten
  else
    let (result, wire) := entries.wire.sendBody (resp.body.drop resp.written) false answers.body
    match writtenOf result with
    | none => .ok ({ entries with wire, partialResponse := none }, none)
    | some written =>
      let resp := { resp with written := resp.written + written }
      let entries := { entries with wire, partialResponse := some resp }
      if resp.written = resp.body.length then
        -- the last byte of the body calls for the end of the stream
        let (finished, wire) :=
          sendEndIf (written + amountWritten = totalToWrite) entries.wire answers.fin
        let entries := { entries with wire }
        match finished with
        | none => .ok (entries, none)
        | some _ =>
          .ok ({ entries.setWrittenToBodySendingTracker written with partialResponse := none },
            some true)
      else if 0 < written then
        .ok (entries.setWrittenToBodySendingTracker written, some false)
      else
        let (finished, wire) :=
          sendEndIf (resp.written + amountWritten = totalToWrite) entries.wire answers.fin
        let entries := { entries with wire }
        match finished with
        | none => .ok ({ entries with partialResponse := none }, none)
        | some _ => .ok (entries.setWrittenToBodySendingTracker written, some false)

def handleWritable (http3Conn : Bool) (entries : StreamEntries) (answers : Answers) :
    Except Panic (StreamEntries × Option Bool) :=
  match withHttp3Conn http3Conn entries.partialResponse with
  | .error panic => .error panic
  | .ok none => .ok (entries, none)
  | .ok (some resp) =>
    match resp.headers with
    | some _ =>
      match answers.headers with
      | .error _ => .ok (entries, none)
      | .ok () =>
        let entries := { entries with wire := entries.wire.sendHeaders false answers.headers }
        handleWritableBody entries { resp with headers := none } answers
    | none => handleWritableBody entries resp answers

/-- One round of the first loop over the writable streams, for a stream whose
headers were sent: `stream_writable` is unwrapped, and a partial response goes on
when it says so. -/
def drain (http3Conn : Bool) (entries : StreamEntries) (streamWritable : Except H3Error Bool)
    (answers : Answers) : Except Panic StreamEntries :=
  if entries.headersSend then
    match streamWritable with
    | .error _ => .error .streamWritable
    | .ok false => .ok entries
    | .ok true =>
      match entries.partialResponse with
      | some _ =>
        match handleWritable http3Conn entries answers with
        | .error panic => .error panic
        | .ok (entries, _) => .ok entries
      | none => .ok entries
  else .ok entries

/-! ## The second loop over the writable streams -/

/-- A parked opening is taken back. -/
def openingRetry (entries : StreamEntries) : Option (QueuedRequest × StreamEntries) :=
  match entries.pendingBodyQueue with
  | item :: pendingBodyQueue =>
    if item.isOpening then some (item, { entries with pendingBodyQueue }) else none
  | [] => none

def isStreamQueueEmpty (entries : StreamEntries) : Bool := entries.pendingBodyQueue.isEmpty

/-- The item the loop attempts next: a parked opening, or the next one queued if
nothing is parked. -/
def nextItem (entries : StreamEntries) : Option (QueuedRequest × StreamEntries) :=
  match openingRetry entries with
  | some retry => some retry
  | none =>
    if !isStreamQueueEmpty entries then none
    else do
      let channel ← entries.channel
      let (item, channel) ← channel.tryPop
      return (item, { entries with channel := some channel })

/-- The arm of `Body` from its send on, where `taken` is what is left of the request. -/
def sendChunk (http3Conn : Bool) (entries : StreamEntries) (content taken : BodyRequest)
    (data : Bytes) (answers : Answers) : Except Panic StreamEntries := do
  match ← sendBodyResponse http3Conn entries data answers.body with
  | (entries, none) => return entries.park (.body content) (.body taken)
  | (entries, some _) =>
    if entries.isBodyTotallyWritten then
      let (entries, _) ← sendBodyResponse http3Conn entries [] answers.fin
      return entries.removeStreamQueue.removeStream
    else return entries

def serveBody (http3Conn : Bool) (entries : StreamEntries) (content : BodyRequest)
    (answers : Answers) : Except Panic StreamEntries :=
  let (entries, taken) :=
    if entries.headersSend then (entries, content)
    else
      let (body, taken) := content.takeData
      ({ entries with partialResponse := some { headers := none, body, written := 0 } }, taken)
  let (data, taken) := taken.takeData
  sendChunk http3Conn entries content taken data answers

/-- The arms of `StreamData` and `BodyProgression`. -/
def serveProgression (http3Conn : Bool) (entries : StreamEntries)
    (kind : BodyRequest → QueuedRequest) (content : BodyRequest) (answers : Answers) :
    Except Panic StreamEntries := do
  let (data, taken) := content.takeData
  match ← sendBodyResponseProgression http3Conn entries data answers.body with
  | (entries, none) => return entries.park (kind content) (kind taken)
  | (entries, some _) => return entries

/-- A header that was sent starts its body: the size is set and the body enters
the chunking station. -/
def startBody (streamId : StreamId) (entries : StreamEntries) (content : HeaderRequest)
    (bodyLen : Option Nat) (file : FileAnswers) :
    Except Panic (StreamEntries × Option ChunkableBody) :=
  match nonEmptyAttachedBody bodyLen, content.attachedBody with
  | some len, some body => do
    let chunkable ← sendResponse streamId file body
    return (entries.setBodySizeToBodySendingTracker len, chunkable)
  | some len, none => return (entries.setBodySizeToBodySendingTracker len, none)
  | none, _ => return (entries, none)

def serveHeader (http3Conn : Bool) (streamId : StreamId) (entries : StreamEntries)
    (content : HeaderRequest) (answers : Answers) :
    Except Panic (StreamEntries × Option ChunkableBody) := do
  let bodyLen ← content.attachedBodyLen answers.file
  let endOnHeaders := responseEndsOnHeaders content.isEnd bodyLen
  let parked := (entries.park (.header content) (.header content), none)
  match content.priorityMode with
  | .openStream =>
    match ← withHttp3Conn http3Conn answers.headers with
    | .ok () =>
      return ({ entries.setHeadersSend true with
        wire := entries.wire.sendHeaders false answers.headers }, none)
    | .error .streamBlocked | .error .done | .error .transportDone => return parked
    | .error .other => return (entries.resetFailedStream, none)
  | .sendHeader =>
    match ← withHttp3Conn http3Conn answers.headers with
    | .ok () =>
      let entries := { entries.setHeadersSend true with
        wire := entries.wire.sendHeaders endOnHeaders answers.headers }
      startBody streamId entries content bodyLen answers.file
    | .error _ => return parked
  | .sendHeader100 =>
    match ← withHttp3Conn http3Conn answers.headers with
    | .ok () =>
      return ({ entries with wire := entries.wire.sendHeaders content.isEnd answers.headers }, none)
    | .error _ => return parked
  | .sendAdditionnalHeader =>
    match ← withHttp3Conn http3Conn answers.headers with
    | .ok () =>
      let entries := { entries with
        wire := entries.wire.sendHeaders endOnHeaders answers.headers }
      let entries := if bodyLen.isSome then entries.setHeadersSend true else entries
      startBody streamId entries content bodyLen answers.file
    | .error _ => return parked
  | .sendWithPriority => return (entries, none)

/-- One stream of the second loop: nothing while a partial response is left, then
one item. A body that starts goes to the chunking station. -/
def serve (http3Conn : Bool) (streamId : StreamId) (entries : StreamEntries) (answers : Answers) :
    Except Panic (StreamEntries × Option ChunkableBody) :=
  if entries.partialResponse.isSome then .ok (entries, none)
  else match nextItem entries with
  | none => .ok (entries, none)
  | some (.body content, entries) => do
    return (← serveBody http3Conn entries content answers, none)
  | some (.streamData content, entries) => do
    return (← serveProgression http3Conn entries .streamData content answers, none)
  | some (.bodyProgression content, entries) => do
    return (← serveProgression http3Conn entries .bodyProgression content answers, none)
  | some (.header content, entries) => serveHeader http3Conn streamId entries content answers

end FacesHttp3.SendLoop
